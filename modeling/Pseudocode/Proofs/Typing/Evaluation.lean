import Pseudocode.Proofs.Typing.Session

/-!
# Static types decide evaluation

A table has a scope of its own, since every symbol shows what it was declared as. In a table
in which every symbol is what its declaration says, the static types in that scope decide
about values (`Expr.type?_decides_eval`). An expression with a value has a static type, which
is that of the value, and a well-typed expression has a value or lacks it because of its data.

Evaluation is strict: an expression has a value only if all expressions in it have one
(`Expr.eval_parts`). So it has none if anything in it is ill typed, even an operand that could
not make a difference.
-/

set_option autoImplicit false

namespace Pseudocode

/-! ## The scope of a table -/

/-- What a symbol was declared as. -/
def Symbol.signature (symbol : Symbol) : Signature :=
  match symbol.slot with
  | .array _ => .array symbol.type
  | .scalar _ => if symbol.constant then .constant symbol.type else .scalar symbol.type

/-- What the names of a table were declared as. -/
def Table.scope (table : Table) : Scope := fun name => (table.find? name).map Symbol.signature

theorem Symbol.WellTyped.fits {symbol : Symbol} (wellTyped : symbol.WellTyped) :
    symbol.Fits symbol.signature := by
  obtain ⟨slot, type, constant⟩ := symbol
  obtain ⟨_, holds⟩ := wellTyped
  cases slot with
  | array elements =>
      obtain ⟨rfl, positive, typed⟩ := holds
      exact .array type elements positive typed
  | scalar value =>
      cases value with
      | none =>
          obtain rfl : constant = false := holds
          exact .ofVariable type
      | some value =>
          obtain rfl : value.type = type := holds
          cases constant with
          | true => exact .constant value
          | false => exact .scalar value.type (some value) fun v same => Option.some.inj same ▸ rfl

namespace Table

variable {table : Table}

theorem WellTyped.conforms (wellTyped : table.WellTyped) : table.Conforms table.scope := by
  intro name
  rw [scope]
  cases found : table.find? name with
  | none => exact .none
  | some symbol => exact .some (wellTyped name symbol found).fits

/-- Entry by entry, a table can be seen to be well typed. -/
theorem wellTyped_of_entries (entries : ∀ entry ∈ table.entries, entry.2.WellTyped) :
    table.WellTyped := by
  intro name symbol found
  obtain ⟨before, behind, same, _⟩ := List.lookup_eq_some_iff.1 found
  refine entries (name, symbol) ?_
  rw [same]
  exact List.mem_append_right before List.mem_cons_self

end Table

/-! ## Strictness -/

namespace Expr

variable {table : Table} {expr : Expr}

/-- An expression and all expressions in it, also those that are an index. -/
def parts : Expr → List Expr
  | literal l => [literal l]
  | name n => [name n]
  | element n index => element n index :: index.parts
  | unary op operand => unary op operand :: operand.parts
  | binary op left right => binary op left right :: (left.parts ++ right.parts)

theorem mem_parts (expr : Expr) : expr ∈ expr.parts := by
  cases expr <;> exact List.mem_cons_self

theorem parts_subset_element (n : String) (index : Expr) :
    index.parts ⊆ (element n index).parts := List.subset_cons_self _ _

theorem parts_subset_unary (op : UnaryOp) (operand : Expr) :
    operand.parts ⊆ (unary op operand).parts := List.subset_cons_self _ _

theorem parts_subset_left (op : BinaryOp) (left right : Expr) :
    left.parts ⊆ (binary op left right).parts :=
  fun _ isPart => List.mem_cons_of_mem _ (List.mem_append_left _ isPart)

theorem parts_subset_right (op : BinaryOp) (left right : Expr) :
    right.parts ⊆ (binary op left right).parts :=
  fun _ isPart => List.mem_cons_of_mem _ (List.mem_append_right _ isPart)

/-- **Where a whole expression has a value, every expression in it has one.** -/
theorem eval_parts {value : Value} (found : expr.eval table = .ok value) :
    ∀ part ∈ expr.parts, ∃ inner, part.eval table = .ok inner := by
  intro part isPart
  induction expr generalizing value with
  | literal l =>
      obtain rfl := List.mem_singleton.1 isPart
      exact ⟨value, found⟩
  | name n =>
      obtain rfl := List.mem_singleton.1 isPart
      exact ⟨value, found⟩
  | element n index ih =>
      obtain ⟨position, indexed, _⟩ := bind_eq_ok.1 found
      rcases List.mem_cons.1 isPart with rfl | inside
      · exact ⟨value, found⟩
      · exact ih indexed inside
  | unary op operand ih =>
      obtain ⟨inner, evaluated, _⟩ := bind_eq_ok.1 found
      rcases List.mem_cons.1 isPart with rfl | inside
      · exact ⟨value, found⟩
      · exact ih evaluated inside
  | binary op left right ihLeft ihRight =>
      obtain ⟨a, first, rest⟩ := bind_eq_ok.1 found
      obtain ⟨b, second, _⟩ := bind_eq_ok.1 rest
      rcases List.mem_cons.1 isPart with rfl | inside
      · exact ⟨value, found⟩
      · rcases List.mem_append.1 inside with inLeft | inRight
        · exact ihLeft first inLeft
        · exact ihRight second inRight

/-! ## Types and values -/

/-- What is ill typed in itself or in anything inside has no value. -/
theorem eval_fails_of_illTyped {scope : Scope} (conforms : table.Conforms scope) {part : Expr}
    (isPart : part ∈ expr.parts) (illTyped : part.type? scope = none) :
    ∃ error, expr.eval table = .error error := by
  cases found : expr.eval table with
  | error error => exact ⟨error, rfl⟩
  | ok value =>
      obtain ⟨inner, evaluated⟩ := eval_parts found part isPart
      have typed := type?_of_eval conforms evaluated
      rw [illTyped] at typed
      cases typed

/-- A well-typed expression has a value of its type, or it fails on its data. -/
theorem eval_of_type? {scope : Scope} (conforms : table.Conforms scope) {type : DataType}
    (typed : expr.type? scope = some type) :
    (∃ value, expr.eval table = .ok value ∧ value.type = type) ∨
      ∃ error, expr.eval table = .error error ∧ error.isValueError = true := by
  cases found : expr.eval table with
  | error error => exact .inr ⟨error, rfl, isValueError_of_eval conforms typed found⟩
  | ok value =>
      have same := (type?_of_eval conforms found).symm.trans typed
      exact .inl ⟨value, rfl, Option.some.inj same⟩

end Expr

/-- Arithmetic on numbers is exact on two integers and approximate on all others. -/
theorem DataType.arithmetic_eq_some_iff {left right type : DataType} :
    left.arithmetic right = some type ↔ left.isNumeric = true ∧ right.isNumeric = true ∧
      type = if left = .integer ∧ right = .integer then .integer else .float := by
  cases left <;> cases right <;> simp [DataType.arithmetic, DataType.isNumeric, eq_comm]

/-- The operators with one meaning for integers and one for all numbers. -/
def BinaryOp.numerical : List BinaryOp := [.add, .subtract, .multiply, .divide, .power]

/-- The value of such an operator is an integer just when both operands are. -/
theorem BinaryOp.type_of_numerical {op : BinaryOp} (numerical : op ∈ BinaryOp.numerical)
    {left right value : Value} (found : op.apply left right = .ok value) :
    left.type.isNumeric = true ∧ right.type.isNumeric = true ∧
      value.type = if left.type = .integer ∧ right.type = .integer then .integer else .float := by
  refine DataType.arithmetic_eq_some_iff.1 ?_
  have typed := op.apply_type found
  simp only [BinaryOp.numerical, List.mem_cons, List.not_mem_nil, or_false] at numerical
  rcases numerical with rfl | rfl | rfl | rfl | rfl <;> exact typed

/-- **The static type decides evaluation.** In a well-typed table an expression with a value
has a static type, which is the type of that value. A well-typed expression has such a value or
fails because something was never written, an index is out of bounds, or integer arithmetic
has no answer. If anything in an expression is ill typed, it fails; if it has a value, so has
every expression in it. The value of an arithmetic operator is an integer if both operands
are, whatever they are, and otherwise a float. -/
theorem Expr.type?_decides_eval {table : Table} (wellTyped : table.WellTyped) (expr : Expr) :
    (∀ value, expr.eval table = .ok value → expr.type? table.scope = some value.type) ∧
      (∀ type, expr.type? table.scope = some type →
        (∃ value, expr.eval table = .ok value ∧ value.type = type) ∨
          ∃ error, expr.eval table = .error error ∧ error.isValueError = true) ∧
      (∀ part ∈ expr.parts, part.type? table.scope = none →
        ∃ error, expr.eval table = .error error) ∧
      (∀ value, expr.eval table = .ok value →
        ∀ part ∈ expr.parts, ∃ inner, part.eval table = .ok inner) ∧
      ∀ op ∈ BinaryOp.numerical, ∀ left right, expr = .binary op left right →
        ∀ value, expr.eval table = .ok value → ∃ a b, left.eval table = .ok a ∧
          right.eval table = .ok b ∧ a.type.isNumeric = true ∧ b.type.isNumeric = true ∧
          value.type = if a.type = .integer ∧ b.type = .integer then .integer else .float := by
  have conforms := wellTyped.conforms
  refine ⟨fun value found => type?_of_eval conforms found,
    fun type typed => eval_of_type? conforms typed,
    fun part isPart illTyped => eval_fails_of_illTyped conforms isPart illTyped,
    fun value found => eval_parts found, ?_⟩
  rintro op numerical left right rfl value found
  obtain ⟨a, first, rest⟩ := bind_eq_ok.1 found
  obtain ⟨b, second, applied⟩ := bind_eq_ok.1 rest
  exact ⟨a, b, first, second, BinaryOp.type_of_numerical numerical applied⟩

/-- An array of which only the first element was written, and a constant. -/
def Table.halfFull : Table where
  entries := [("a", ⟨.array #[some (.integer .one), none], .integer, false⟩),
    ("n", ⟨.scalar (some (.integer ⟨-2, by decide, by decide⟩)), .integer, true⟩)]
  ordered := by
    simp only [Entries.Ordered, List.map_cons, List.map_nil]
    decide

/-- A negative power of an integer is an integer. An operand that cannot make a difference
still has to have a value, and to be well typed. -/
theorem Expr.halfFull_type?_decides_eval :
    let table := Table.halfFull
    let inverse : Expr := .binary .power (.name "n") (.name "n")
    let either (operand : Expr) : Expr :=
      .binary .or (.literal (.boolean true)) (.binary .less inverse operand)
    let first : Expr := .element "a" (.literal (.integer .one))
    let second : Expr := .element "a" (.unary .minus (.name "n"))
    table.WellTyped ∧
      (∃ value, inverse.eval table = .ok value ∧ value.type = .integer) ∧
      (∃ value, (either first).eval table = .ok value ∧ value.type = .boolean) ∧
      (∃ error, (either second).eval table = .error error ∧ error.isValueError = true) ∧
      ∃ error, (either (.name "a")).eval table = .error error := by
  intro table inverse either first second
  have wellTyped : table.WellTyped := by
    refine Table.wellTyped_of_entries ?_
    simp [table, Table.halfFull, Symbol.WellTyped, Value.type]
  refine ⟨wellTyped, ?_, ?_, ?_, ?_⟩
  · obtain ⟨typed, -⟩ := type?_decides_eval wellTyped inverse
    exact ⟨_, rfl, Option.some.inj (typed _ rfl).symm⟩
  · obtain ⟨typed, -⟩ := type?_decides_eval wellTyped (either first)
    exact ⟨_, rfl, Option.some.inj (typed _ rfl).symm⟩
  · obtain ⟨-, decides, -⟩ := type?_decides_eval wellTyped (either second)
    rcases decides .boolean rfl with ⟨value, found, -⟩ | failed
    · cases found
    · exact failed
  · obtain ⟨-, -, fails, -⟩ := type?_decides_eval wellTyped (either (.name "a"))
    have isPart : Expr.binary .less inverse (.name "a") ∈ (either (.name "a")).parts := by
      simp [either, Expr.parts]
    exact fails _ isPart rfl

end Pseudocode
