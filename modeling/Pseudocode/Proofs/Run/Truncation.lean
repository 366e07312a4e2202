import Pseudocode.Proofs.Run.Capacity
import Pseudocode.Proofs.Run.Footprint

/-!
# Outputs with a limit

A program cannot see how much room there is in its output before a line does not fit. So
a run with a limit is the run without one, cut off at the line that crosses the limit
(`Program.exec_truncated`).

To say which line that is, the lines of a run are listed with the states in which they
were printed (`Run.Prints`). All other steps take no notice of the output (`Run.Apart`).
-/

set_option autoImplicit false

namespace Pseudocode

/-- The state with another output. -/
def State.on (output : Output) (state : State) : State := { state with output }

/-- The state with a limit for its output. -/
def State.limited (limit : Nat) (state : State) : State :=
  state.on ⟨state.output.written, some limit, state.output.stuck⟩

/-- An outcome with its state changed. -/
def Outcome.changing {α : Type} (change : State → State) : Outcome α → Outcome α
  | .ok a next => .ok a (change next)
  | .error stop next => .error stop (change next)

/-- A line on its way to the output. -/
structure Printing where
  /-- The line with its end. -/
  text : String
  /-- The state in which it is printed. -/
  before : State

namespace Run

variable {α β : Type}

/-- A run that neither prints nor looks at the output, except to flush it. -/
def Apart (run : Run α) : Prop :=
  ∀ (state : State) (output : Output), output.stuck = state.output.stuck →
    run (state.on output) = Outcome.changing (State.on output) (run state)

/-- The lines that a run prints from a state on, in order. -/
inductive Prints : {α : Type} → Run α → State → List Printing → Prop where
  | nothing {α : Type} {run : Run α} {state : State} (apart : run.Apart) : Prints run state []
  | line (line : String) (state : State) :
      Prints (Run.print line) state [⟨line ++ "\n", state⟩]
  | bind {α β : Type} {first : Run α} {second : α → Run β} {state next : State} {a : α}
      {earlier later : List Printing} (ran : first state = .ok a next)
      (prints : Prints first state earlier) (more : Prints (second a) next later) :
      Prints (first >>= second) state (earlier ++ later)
  | stopped {α β : Type} {first : Run α} {second : α → Run β} {state next : State} {stop : Stop}
      {earlier : List Printing} (ran : first state = .error stop next)
      (prints : Prints first state earlier) : Prints (first >>= second) state earlier

/-! ## Steps that do not print -/

namespace Apart

theorem after {run : Run α} (apart : run.Apart) (state : State) :
    (run.after state).output = state.output := by
  have same : run state = Outcome.changing (State.on state.output) (run state) :=
    apart state state.output rfl
  cases ran : run state with
  | ok a next =>
      rw [ran, Outcome.changing] at same
      rw [after_ok ran, (EStateM.Result.ok.inj same).2, State.on]
  | error stop next =>
      rw [ran, Outcome.changing] at same
      rw [after_error ran, (EStateM.Result.error.inj same).2, State.on]

theorem lift_recorded (computed : Except RuntimeError α) (state : State) (output : Output)
    (journal : Journal) :
    Run.lift computed ⟨state.table, output, journal⟩ =
      Outcome.changing (State.on output) (Run.lift computed { state with journal }) := by
  cases computed <;> rfl

theorem eval (expr : Expr) : (Run.eval expr).Apart := by
  obtain ⟨recorded, spec⟩ := Run.eval_spec expr
  intro state output _
  rw [State.on, spec, spec]
  exact lift_recorded (expr.eval state.table) state output _

theorem symbol (name : String) : (Run.symbol name).Apart := by
  intro state output _
  exact lift_recorded (state.table.get name) state output state.journal

theorem update (operation : Update α) : (Run.update operation).Apart := by
  intro state output _
  simp only [Run.update, State.on]
  cases operation state.table <;> rfl

theorem resize [Memory] (name : String) (size : Value) : (Run.resize name size).Apart := by
  obtain ⟨recorded, spec⟩ := Run.resize_spec name size
  intro state output stuck
  rw [State.on, spec, spec]
  exact update _ { state with journal := recorded state.table state.journal } output stuck

theorem declare (name : String) (symbol : Symbol) : (Run.declare name symbol).Apart := by
  obtain ⟨recorded, spec⟩ := Run.declare_spec name symbol
  intro state output _
  rw [State.on, spec, spec]
  cases state.table.declare name symbol <;> rfl

theorem flush : Run.flush.Apart := by
  intro state output stuck
  have asked : ∀ held : Output, Writer.flush held =
      (if held.stuck then .error "flush failed" else .ok (), held) := fun _ => rfl
  simp only [Run.flush, Run.ask, State.on, asked, stuck]
  cases state.output.stuck <;> rfl

end Apart

/-- The lines that a run prints can be listed, from every state on. -/
def Listed (run : Run α) : Prop := ∀ state, ∃ printings, run.Prints state printings

theorem Apart.listed {run : Run α} (apart : run.Apart) : run.Listed :=
  fun _ => ⟨[], .nothing apart⟩

namespace Listed

theorem bind {first : Run α} {second : α → Run β} (earlier : first.Listed)
    (later : ∀ a, (second a).Listed) : (first >>= second).Listed := by
  intro state
  obtain ⟨printings, prints⟩ := earlier state
  cases ran : first state with
  | ok a next =>
      obtain ⟨others, more⟩ := later a next
      exact ⟨printings ++ others, .bind ran prints more⟩
  | error stop next => exact ⟨printings, .stopped ran prints⟩

theorem composable : Composable fun {_} run => Listed run where
  pure _ := Apart.listed fun _ _ _ => rfl
  stop _ := Apart.listed fun _ _ _ => rfl
  bind := bind
  note _ _ _ := Apart.listed fun _ _ _ => rfl

end Listed

end Run

section Execution

variable [Memory]

theorem Stmt.admits_listed (stmt : Stmt) : stmt.Admits fun {_} run => run.Listed := by
  refine ⟨fun expr _ => (Run.Apart.eval expr).listed, ?_⟩
  cases stmt with
  | assign name expr =>
      exact ⟨(Run.Apart.symbol name).listed, fun value => (Run.Apart.update _).listed⟩
  | assignAt name position expr =>
      exact ⟨(Run.Apart.symbol name).listed, fun index value => (Run.Apart.update _).listed⟩
  | forLoop name first last step body =>
      exact ⟨(Run.Apart.symbol name).listed, fun counter => (Run.Apart.update _).listed⟩
  | resize name expr =>
      exact ⟨(Run.Apart.symbol name).listed, fun size => (Run.Apart.resize name size).listed⟩
  | print values => exact fun line state => ⟨_, .line line state⟩
  | branch | whileLoop | repeatLoop | switch => trivial

theorem Program.exec_listed (patience : Nat) (program : Program) :
    (program.exec patience).Listed := by
  apply exec_composed Run.Listed.composable
  · exact fun expr => (Run.Apart.eval expr).listed
  · exact Stmt.admits_listed
  · exact fun name symbol => (Run.Apart.declare name symbol).listed
  · exact Run.Apart.flush.listed

end Execution

/-! ## What is added to an output -/

/-- The bytes of some lines. -/
def Printing.bytes : List Printing → ByteArray
  | [] => .empty
  | printing :: rest => printing.text.toUTF8 ++ bytes rest

theorem Printing.bytes_append (earlier later : List Printing) :
    bytes (earlier ++ later) = bytes earlier ++ bytes later := by
  induction earlier with
  | nil => rw [List.nil_append, bytes, ByteArray.empty_append]
  | cons printing rest ih => rw [List.cons_append, bytes, bytes, ih, ByteArray.append_assoc]

/-- A limit is crossed by a line if what stands before it is within the limit and what
stands behind it is not. -/
structure Printing.Crosses (limit : Nat) (printing : Printing) : Prop where
  before : printing.before.output.written.size ≤ limit
  behind : limit < (printing.before.output.written ++ printing.text.toUTF8).size

namespace Run.Prints

variable {α : Type} {run : Run α} {state : State} {printings : List Printing}

/-- Whatever the output can take, what it has taken stays. -/
theorem appends (prints : run.Prints state printings) :
    ∃ added, (run.after state).output =
      { state.output with written := state.output.written ++ added } := by
  induction prints with
  | nothing apart =>
      refine ⟨.empty, ?_⟩
      rw [apart.after, ByteArray.append_empty]
      rfl
  | line line state =>
      by_cases fits : state.output.hasRoom (line ++ "\n").toUTF8.size = true
      · exact ⟨_, by rw [after_ok (print_of_room fits)]⟩
      · exact ⟨_, by rw [after_error (print_of_full fits)]⟩
  | bind ran _ _ first second =>
      obtain ⟨added, wrote⟩ := first
      obtain ⟨more, wroteMore⟩ := second
      rw [after_ok ran] at wrote
      refine ⟨added ++ more, ?_⟩
      rw [after_bind ran, wroteMore, wrote, ByteArray.append_assoc]
  | stopped ran _ first =>
      rw [after_error ran] at first
      rwa [after_error (bind_error ran)]

/-- Without a limit all lines are printed in full. -/
theorem output (prints : run.Prints state printings) (unbounded : state.output.capacity = none) :
    (run.after state).output =
      { state.output with written := state.output.written ++ Printing.bytes printings } := by
  induction prints with
  | nothing apart =>
      rw [apart.after, Printing.bytes, ByteArray.append_empty]
      rfl
  | line line state =>
      have free := Output.hasRoom_of_unbounded unbounded (line ++ "\n").toUTF8.size
      rw [after_ok (print_of_room free), Printing.bytes, Printing.bytes, ByteArray.append_empty]
  | bind ran _ _ first second =>
      have wrote := first unbounded
      rw [after_ok ran] at wrote
      have wroteMore := second (by rw [wrote, unbounded])
      rw [after_bind ran, wroteMore, wrote, Printing.bytes_append, ByteArray.append_assoc]
  | stopped ran _ first =>
      have wrote := first unbounded
      rw [after_error ran] at wrote
      rwa [after_error (bind_error ran)]

theorem size_le (prints : run.Prints state printings) :
    state.output.written.size ≤ (run.after state).output.written.size := by
  obtain ⟨added, wrote⟩ := prints.appends
  rw [wrote, ByteArray.size_append]
  exact Nat.le_add_right _ _

theorem capacity (prints : run.Prints state printings) :
    (run.after state).output.capacity = state.output.capacity := by
  obtain ⟨added, wrote⟩ := prints.appends
  rw [wrote]

theorem stuck (prints : run.Prints state printings) :
    (run.after state).output.stuck = state.output.stuck := by
  obtain ⟨added, wrote⟩ := prints.appends
  rw [wrote]

/-- A limit that is not crossed makes no difference. -/
theorem within {limit : Nat} (prints : run.Prints state printings)
    (unbounded : state.output.capacity = none)
    (fits : (run.after state).output.written.size ≤ limit) :
    run (state.limited limit) = Outcome.changing (State.limited limit) (run state) := by
  induction prints with
  | @nothing _ run state apart =>
      have kept := apart.after state
      have limited : run (state.limited limit) = Outcome.changing
          (State.on ⟨state.output.written, some limit, state.output.stuck⟩) (run state) :=
        apart state _ rfl
      rw [limited]
      cases ran : run state with
      | ok a next =>
          rw [after_ok ran] at kept
          rw [Outcome.changing, Outcome.changing, State.limited, kept]
      | error stop next =>
          rw [after_error ran] at kept
          rw [Outcome.changing, Outcome.changing, State.limited, kept]
  | line line state =>
      have free := Output.hasRoom_of_unbounded unbounded (line ++ "\n").toUTF8.size
      rw [after_ok (print_of_room free), ByteArray.size_append] at fits
      have room : (state.limited limit).output.hasRoom (line ++ "\n").toUTF8.size = true :=
        decide_eq_true fits
      rw [print_of_room room, print_of_room free]
      rfl
  | bind ran prints more first second =>
      rw [after_bind ran] at fits
      have capacity := prints.capacity
      rw [after_ok ran] at first capacity
      have limited := first unbounded (Nat.le_trans more.size_le fits)
      rw [ran] at limited
      rw [bind_ok limited, bind_ok ran]
      exact second (capacity.trans unbounded) fits
  | stopped ran prints first =>
      rw [after_error (bind_error ran)] at fits
      rw [after_error ran] at first
      have limited := first unbounded fits
      rw [ran] at limited
      rw [bind_error limited, bind_error ran]
      rfl

/-- The lines of a run stand between what was printed before it and after it. -/
theorem between (prints : run.Prints state printings) (unbounded : state.output.capacity = none)
    {printing : Printing} (member : printing ∈ printings) :
    state.output.written.size ≤ printing.before.output.written.size ∧
      (printing.before.output.written ++ printing.text.toUTF8).size ≤
        (run.after state).output.written.size := by
  induction prints with
  | nothing apart => cases member
  | line line state =>
      have free := Output.hasRoom_of_unbounded unbounded (line ++ "\n").toUTF8.size
      rw [List.mem_singleton.1 member, after_ok (print_of_room free)]
      exact ⟨Nat.le_refl _, Nat.le_refl _⟩
  | bind ran prints more first second =>
      have capacity := prints.capacity
      have earlier := prints.size_le
      have later := more.size_le
      rw [after_ok ran] at capacity earlier first
      rw [after_bind ran]
      rcases List.mem_append.1 member with member | member
      · obtain ⟨low, high⟩ := first unbounded member
        exact ⟨low, Nat.le_trans high later⟩
      · obtain ⟨low, high⟩ := second (capacity.trans unbounded) member
        exact ⟨Nat.le_trans earlier low, high⟩
  | stopped ran prints first =>
      rw [after_error ran] at first
      rw [after_error (bind_error ran)]
      exact first unbounded member

/-- A limit is crossed by one line at most. -/
theorem crossing_unique {limit : Nat} (prints : run.Prints state printings)
    (unbounded : state.output.capacity = none) {printing other : Printing}
    (member : printing ∈ printings) (isOther : other ∈ printings)
    (crosses : printing.Crosses limit) (also : other.Crosses limit) : other = printing := by
  induction prints with
  | nothing apart => cases member
  | line line state => rw [List.mem_singleton.1 member, List.mem_singleton.1 isOther]
  | @bind _ _ _ _ _ next _ earlier later ran prints more first second =>
      have capacity := prints.capacity
      rw [after_ok ran] at capacity
      -- All that the earlier lines have printed stands before the later ones.
      have apart : ∀ early late : Printing, early ∈ earlier → late ∈ later →
          early.Crosses limit → ¬ late.Crosses limit := by
        intro early late isEarly isLate crosses crossesLate
        have high := (prints.between unbounded isEarly).2
        have low := (more.between (capacity.trans unbounded) isLate).1
        rw [after_ok ran] at high
        have beyond := Nat.lt_of_lt_of_le crosses.behind (Nat.le_trans high low)
        exact absurd crossesLate.before (Nat.not_le.2 beyond)
      rcases List.mem_append.1 member with member | member
      · rcases List.mem_append.1 isOther with isOther | isOther
        · exact first unbounded member isOther
        · exact absurd also (apart printing other member isOther crosses)
      · rcases List.mem_append.1 isOther with isOther | isOther
        · exact absurd crosses (apart other printing isOther member also)
        · exact second (capacity.trans unbounded) member isOther
  | stopped ran prints first => exact first unbounded member isOther

/-- With a limit that is crossed, the run stops at a line that crosses it. -/
theorem crossed {limit : Nat} (prints : run.Prints state printings)
    (unbounded : state.output.capacity = none) (before : state.output.written.size ≤ limit)
    (behind : limit < (run.after state).output.written.size) :
    ∃ printing ∈ printings, printing.Crosses limit ∧
      run (state.limited limit) = .error (.failed (.output "sink full")) (printing.before.on
        ⟨(run.after state).output.written.extract 0 limit, some limit, state.output.stuck⟩) := by
  induction prints with
  | nothing apart =>
      rw [apart.after] at behind
      exact absurd before (Nat.not_le.2 behind)
  | line line state =>
      have free := Output.hasRoom_of_unbounded unbounded (line ++ "\n").toUTF8.size
      rw [after_ok (print_of_room free)] at behind ⊢
      have full : ¬ (state.limited limit).output.hasRoom (line ++ "\n").toUTF8.size = true := by
        rw [ByteArray.size_append] at behind
        simpa [Output.hasRoom, State.limited, State.on] using behind
      refine ⟨_, List.mem_singleton_self _, ⟨before, behind⟩, ?_⟩
      rw [print_of_full full, extract_append_of_ge before]
      rfl
  | @bind _ _ start _ state next _ _ _ ran prints more first second =>
      have capacity := prints.capacity
      have stuck := prints.stuck
      rw [after_ok ran] at capacity stuck first
      rw [after_bind ran] at behind ⊢
      by_cases early : limit < next.output.written.size
      · -- The first part is cut off, and what the second part prints is beyond the limit.
        obtain ⟨printing, member, crosses, limited⟩ := first unbounded before early
        obtain ⟨added, wrote⟩ := more.appends
        refine ⟨printing, List.mem_append_left _ member, crosses, ?_⟩
        rw [bind_error limited, wrote, extract_append_of_le (Nat.le_of_lt early)]
      · -- The first part is within the limit, so the second one starts from where it did.
        have fits := Nat.not_lt.1 early
        have inside : (start.after state).output.written.size ≤ limit := by rwa [after_ok ran]
        have limited := prints.within unbounded inside
        rw [ran] at limited
        obtain ⟨printing, member, crosses, cut⟩ := second (capacity.trans unbounded) fits behind
        refine ⟨printing, List.mem_append_right _ member, crosses, ?_⟩
        rw [bind_ok limited, cut, stuck]
  | stopped ran prints first =>
      rw [after_error ran] at first
      rw [after_error (bind_error ran)] at behind ⊢
      obtain ⟨printing, member, crosses, limited⟩ := first unbounded before behind
      exact ⟨printing, member, crosses, bind_error limited⟩

end Run.Prints

/-! ## Programs -/

namespace Program

/-- **A run with a limit is a run without one, cut off at the limit.** A run only ever adds
to its output. Let a run without a limit print certain lines. Any limit within which its
output stays makes no difference. With any other limit it fails at the one line that
crosses the limit, with the output cut off there, and all else as it was before that line
was printed. -/
theorem exec_truncated [Memory] (patience : Nat) (program : Program) (state : State) :
    let run := program.exec patience
    let printed := (run.after state).output.written
    (∃ added, (run.after state).output =
        { state.output with written := state.output.written ++ added }) ∧
      (state.output.capacity = none → ∃ printings, run.Prints state printings ∧
        printed = state.output.written ++ Printing.bytes printings ∧
        ∀ limit, state.output.written.size ≤ limit →
          (printed.size ≤ limit →
            run (state.limited limit) = Outcome.changing (State.limited limit) (run state)) ∧
          (limit < printed.size → ∃ printing ∈ printings, printing.Crosses limit ∧
            (∀ other ∈ printings, other.Crosses limit → other = printing) ∧
            run (state.limited limit) = .error (.failed (.output "sink full"))
              (printing.before.on ⟨printed.extract 0 limit, some limit, state.output.stuck⟩))) := by
  intro run printed
  obtain ⟨printings, prints⟩ := program.exec_listed patience state
  refine ⟨prints.appends, fun unbounded => ⟨printings, prints, ?_, fun limit before => ?_⟩⟩
  · exact congrArg Output.written (prints.output unbounded)
  · refine ⟨prints.within unbounded, fun behind => ?_⟩
    obtain ⟨printing, member, crosses, cut⟩ := prints.crossed unbounded before behind
    refine ⟨printing, member, crosses, fun other isOther also => ?_, cut⟩
    exact prints.crossing_unique unbounded member isOther crosses also

/-- Prints the same letter, of two bytes, on two lines. -/
def stammer : Program :=
  let write (letter : Char) : Stmt := .assign "last" (.literal (.character letter))
  let print : Stmt := .print [.literal (.character 'é')]
  ⟨"Stammer", ⟨[], [⟨"last", .character, none⟩]⟩, [write 'a', print, write 'b', print, write 'c']⟩

/-- The limit falls within the second letter. The variable is not written any more. -/
theorem stammer_truncated :
    let start : State := ⟨.empty, .unbounded, .off⟩
    ((stammer.exec 1).after start).output.written = "é\né\n".toUTF8 ∧
      ((stammer.exec 1).after start).table.render = "- last: CHAR_TYPE -> c\n" ∧
      ∃ printing : Printing, printing.Crosses 4 ∧
        printing.before.table.render = "- last: CHAR_TYPE -> b\n" ∧
        stammer.exec 1 (start.limited 4) = .error (.failed (.output "sink full"))
          (printing.before.on ⟨("é\né\n".toUTF8).extract 0 4, some 4, false⟩) := by
  intro start
  have whole : ((stammer.exec 1).after start).output.written = "é\né\n".toUTF8 := by
    decide +kernel
  have cut : ((stammer.exec 1).after (start.limited 4)).table.render =
      "- last: CHAR_TYPE -> b\n" := by
    decide +kernel
  obtain ⟨_, unlimited⟩ := exec_truncated 1 stammer start
  obtain ⟨printings, _, _, limits⟩ := unlimited rfl
  have behind : 4 < ((stammer.exec 1).after start).output.written.size := by
    rw [whole]
    decide
  obtain ⟨printing, _, crosses, _, stopped⟩ := (limits 4 (by decide)).2 behind
  rw [Run.after_error stopped] at cut
  rw [whole] at stopped
  exact ⟨whole, by decide +kernel, printing, crosses, cut, stopped⟩

end Program

end Pseudocode
