/-!
# Journals

While a program is read and run, a journal can be kept of what happens. A record
has a level, the part of the program it comes from and a message. A journal keeps
the records up to a chosen level and ignores all others.
-/

set_option autoImplicit false

namespace Pseudocode

/-- How detailed a record is. -/
inductive Level where
  | info
  | debug
  | trace
deriving DecidableEq, Inhabited

namespace Level

/-- The more detailed, the higher. -/
def rank : Level → Nat
  | info => 1
  | debug => 2
  | trace => 3

/-- The level in a record, five characters wide. -/
def label : Level → String
  | info => "INFO "
  | debug => "DEBUG"
  | trace => "TRACE"

end Level

/-- The part that a record comes from. -/
inductive Origin where
  | command
  | token
  | grammar
  | table
  | expression
  | statement
  | loop
deriving DecidableEq, Inhabited

/-- The part as it is named in records. -/
def Origin.path : Origin → String
  | command => "algo"
  | token => "algo::interpreter::lexer"
  | grammar => "algo::interpreter::parser::core"
  | table => "algo::interpreter::symbol_table"
  | expression => "algo::interpreter::evaluator::core"
  | statement => "algo::interpreter::evaluator::statement"
  | loop => "algo::interpreter::evaluator::control_flow"

/-- A record. -/
structure Record where
  level : Level
  origin : Origin
  message : String
deriving DecidableEq, Inhabited

/-- The line of a record. -/
def Record.render (record : Record) : String :=
  s!"[{record.level.label}] [{record.origin.path}] {record.message}"

/-- The records so far, and the level up to which records are kept. -/
structure Journal where
  level : Option Level
  records : Array Record

namespace Journal

/-- A journal that keeps nothing. -/
def off : Journal := ⟨none, #[]⟩

/-- An empty journal that keeps records up to the given level. -/
def upTo (level : Level) : Journal := ⟨some level, #[]⟩

/-- Whether records of a level are kept. -/
def keeps (journal : Journal) (level : Level) : Bool :=
  match journal.level with
  | none => false
  | some most => level.rank ≤ most.rank

/-- The journal with one more record, if records of its level are kept. The
message is made only then. -/
@[inline]
def add (journal : Journal) (level : Level) (origin : Origin) (message : Unit → String) :
    Journal :=
  if journal.keeps level then
    { journal with records := journal.records.push ⟨level, origin, message ()⟩ }
  else journal

/-- The lines of the records. -/
def lines (journal : Journal) : List String := journal.records.toList.map Record.render

/-- A journal that keeps nothing stays as it is. -/
@[simp]
theorem off_add (level : Level) (origin : Origin) (message : Unit → String) :
    off.add level origin message = off := rfl

end Journal

end Pseudocode
