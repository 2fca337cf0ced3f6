import PocketScript.Proofs.Flow.Skipping

/-! # Progress

Running code from one address leads to running it from another, whatever number
of steps is left then. `Leads` counts the steps that this takes, and is put
together by `Leads.trans`.
-/

namespace PocketScript

open Eval (Yields Keeps)
open Machine (evaluate runCode betweenStatements)

variable {κ : Type} [Console κ]

namespace Eval

variable {α : Type} {evaluation : Eval κ α} {machine : Machine κ} {done : α → Machine κ → Prop}

omit [Console κ] in
/-- Either there is a result, or the program gave up. -/
theorem Yields.ran (yields : Yields evaluation machine done) :
    (∃ result after, evaluation machine = .ok result after ∧ done result after) ∨
      ∃ failed, evaluation machine = .error .quit failed ∧ failed.GaveUp := by
  unfold Yields at yields
  cases ran : evaluation machine with
  | ok result after =>
      rw [ran] at yields
      exact .inl ⟨result, after, rfl, yields⟩
  | error interrupt failed =>
      rw [ran] at yields
      cases interrupt with
      | quit => exact .inr ⟨failed, rfl, yields⟩
      | answer value | unfinished => exact yields.elim

end Eval

namespace Machine

/-- Running the code at an address, with at most `limit` steps in any code that
    its statements run. -/
def runFrom (limit levels : Nat) : (steps : Nat) → (address : Nat) → Eval κ Value :=
  runCode fun address => evaluate limit levels address Inner.statementCeiling true

/-- Within `count` steps, running the code at an address leads to a machine and
    another address of which `goal` holds, or the program gives up. -/
def Leads (limit levels count : Nat) (machine : Machine κ) (address : Nat) (goal : Machine κ → Nat → Prop) :
    Prop :=
  ∃ used ≤ count,
    (∃ after address', goal after address' ∧
      ∀ steps, runFrom limit levels (steps + used) address machine = runFrom limit levels steps address' after) ∨
    ∃ failed, failed.GaveUp ∧ ∀ steps, runFrom limit levels (steps + used) address machine = .error .quit failed

namespace Leads

variable {limit levels count count' address : Nat} {machine : Machine κ} {goal goal' : Machine κ → Nat → Prop}

theorem here (holds : goal machine address) : Leads limit levels count machine address goal :=
  ⟨0, Nat.zero_le _, .inl ⟨machine, address, holds, fun _ => rfl⟩⟩

theorem trans {total : Nat} (first : Leads limit levels count machine address goal)
    (within : count + count' ≤ total)
    (rest : ∀ after address', goal after address' → Leads limit levels count' after address' goal') :
    Leads limit levels total machine address goal' := by
  obtain ⟨used, below, ⟨middle, address', holds, goes⟩ | ⟨failed, gave_up, ends⟩⟩ := first
  · obtain ⟨used', below', ⟨after, address'', holds', goes'⟩ | ⟨failed, gave_up, ends⟩⟩ := rest middle address' holds
    · refine ⟨used' + used, by omega, .inl ⟨after, address'', holds', fun steps => ?_⟩⟩
      rw [← Nat.add_assoc, goes, goes']
    · refine ⟨used' + used, by omega, .inr ⟨failed, gave_up, fun steps => ?_⟩⟩
      rw [← Nat.add_assoc, goes, ends]
  · exact ⟨used, by omega, .inr ⟨failed, gave_up, ends⟩⟩

theorem mono (leads : Leads limit levels count machine address goal) (more : count ≤ count')
    (holds : ∀ after address', goal after address' → goal' after address') :
    Leads limit levels count' machine address goal' := by
  obtain ⟨used, within, ⟨after, address', here, goes⟩ | gives_up⟩ := leads
  · exact ⟨used, by omega, .inl ⟨after, address', holds after address' here, goes⟩⟩
  · exact ⟨used, by omega, .inr gives_up⟩

/-- Between two lines. -/
theorem newline (feed : machine.store.byte address = 0x0a) (holds : goal machine (address + 1)) :
    Leads limit levels 1 machine address goal := by
  refine ⟨1, Nat.le_refl _, .inl ⟨machine, address + 1, holds, fun steps => ?_⟩⟩
  unfold runFrom
  rw [runCode]
  simp only [Bind.bind, EStateM.bind, Eval.byteAt, get, getThe, MonadStateOf.get, EStateM.get, pure, EStateM.pure,
    feed, if_true]

/-- A statement, with what happens after it. -/
theorem statement {done : Expression → Machine κ → Prop}
    (feed : machine.store.byte address ≠ 0x0a) (zero : machine.store.byte address ≠ 0)
    (evaluates : Yields (evaluate limit levels address Inner.statementCeiling true) machine done)
    (between : ∀ expression middle, done expression middle →
      Yields betweenStatements middle fun _ after => goal after expression.code) :
    Leads limit levels 1 machine address goal := by
  have runs : ∀ steps, runFrom limit levels (steps + 1) address machine =
      Machine.orAnswer (evaluate limit levels address Inner.statementCeiling true) (fun expression => do
        betweenStatements
        runFrom limit levels steps expression.code) machine := by
    intro steps
    unfold runFrom
    rw [runCode]
    simp only [Bind.bind, EStateM.bind, Eval.byteAt, get, getThe, MonadStateOf.get, EStateM.get, pure, EStateM.pure,
      feed, zero, if_false]
  refine ⟨1, Nat.le_refl _, ?_⟩
  rcases evaluates.ran with ⟨expression, middle, ran, holds⟩ | ⟨failed, ran, gave_up⟩
  · rcases (between expression middle holds).ran with ⟨_, after, ran', holds'⟩ | ⟨failed, ran', gave_up⟩
    · refine .inl ⟨after, expression.code, holds', fun steps => ?_⟩
      rw [runs, orAnswer, ran]
      simp only [Bind.bind, EStateM.bind, ran']
    · refine .inr ⟨failed, gave_up, fun steps => ?_⟩
      rw [runs, orAnswer, ran]
      simp only [Bind.bind, EStateM.bind, ran']
  · refine .inr ⟨failed, gave_up, fun steps => ?_⟩
    rw [runs, orAnswer, ran]

end Leads

end Machine

variable {scene : Scene κ} {limit levels address code : Nat} {machine : Machine κ} {course : Course}
  {branches : List Branch} {line : List UInt8} {others : List (List UInt8)}

/-- A machine at a point of its course and in these blocks, with lines to run. -/
structure Scene.Faces (scene : Scene κ) (course : Course) (branches : List Branch) (lines : List (List UInt8))
    (machine : Machine κ) (address : Nat) : Prop where
  stands : scene.Stands machine course branches
  ready : machine.Ready
  lines : scene.store.HasLines address lines

/-- The text of a line is not empty, and has no end of a line in it. -/
structure Code.IsLine (line : List UInt8) : Prop where
  plain : Store.Plain line
  some_byte : line ≠ []

theorem Code.IsLine.first (is_line : Code.IsLine line) {store : Store} (has : store.Has address line) :
    store.byte address ≠ 0x0a ∧ store.byte address ≠ 0 := by
  cases line with
  | nil => exact absurd rfl is_line.some_byte
  | cons first rest =>
      have ends := is_line.plain first (List.mem_cons_self ..)
      rw [has.1]
      simpa [Store.endsLine] using ends

/-- A statement leads on to the address behind it. -/
theorem Scene.Turns.leads (turns : scene.Turns limit levels machine address course branches code)
    (ready : machine.Ready) (first : machine.store.byte address ≠ 0x0a ∧ machine.store.byte address ≠ 0) :
    Machine.Leads limit levels 1 machine address fun after address' =>
      scene.Stands after course branches ∧ after.Ready ∧ address' = code := by
  refine .statement first.1 first.2 (turns.keeps (Machine.keeps_evaluate limit levels ready _ _ _)) ?_
  rintro expression middle ⟨⟨stands, rfl⟩, follows, -⟩
  have ready := follows.ready ready
  refine (stands.betweenStatements.keeps (Machine.keeps_betweenStatements ready)).mono ?_
  rintro _ after ⟨stands, follows, -⟩
  exact ⟨stands, follows.ready ready, rfl⟩

namespace Scene.Faces

/-- A line leads on to the next. -/
theorem leads_line {course' : Course} {branches' : List Branch}
    (faces : scene.Faces course branches (line :: others) machine address) (is_line : Code.IsLine line)
    (turns : scene.Turns limit levels machine address course' branches' (address + line.length)) :
    Machine.Leads limit levels 2 machine address (scene.Faces course' branches' others) := by
  have first := is_line.first faces.lines.1
  rw [← faces.stands.store] at first
  refine (turns.leads faces.ready first).trans (Nat.le_refl (1 + 1)) ?_
  rintro after _ ⟨stands, ready, rfl⟩
  rcases faces.lines.2 with ⟨feed, has⟩ | ⟨rfl, zero⟩
  · rw [← stands.store] at feed
    exact .newline feed ⟨stands, ready, has⟩
  · exact .here ⟨stands, ready, zero⟩

theorem has (faces : scene.Faces course branches (line :: others) machine address) : scene.store.Has address line :=
  faces.lines.1

theorem ends (faces : scene.Faces course branches (line :: others) machine address) :
    Store.endsLine (scene.store.byte (address + line.length)) = true :=
  faces.lines.endsLine

theorem lineEnd (faces : scene.Faces course branches (line :: others) machine address)
    (is_line : Code.IsLine line) : scene.store.lineEnd address = address + line.length :=
  Store.lineEnd_eq faces.has is_line.plain faces.ends

end Scene.Faces

namespace Code

theorem isLine_builtin (builtin : Builtin) {text : List UInt8} (plain : Store.Plain text) :
    IsLine (builtin.byte :: text) := by
  refine ⟨fun byte mem => ?_, List.cons_ne_nil _ _⟩
  rcases List.mem_cons.mp mem with rfl | mem
  · exact builtin.endsLine_byte
  · exact plain byte mem

theorem isLine_alone (builtin : Builtin) : IsLine [builtin.byte] :=
  isLine_builtin builtin (by simp [Store.Plain])

theorem isLine_assign (name : Name) (operator? : Option Combination) (formula : Formula) :
    IsLine (name.bytes ++ assignByte operator? :: formula.text) := by
  refine ⟨fun byte mem => ?_, by simp⟩
  rcases List.mem_append.mp mem with mem | mem
  · exact name.plain byte mem
  · rcases List.mem_cons.mp mem with rfl | mem
    · cases operator? with
      | none => decide
      | some operator => cases operator <;> decide
    · exact formula.plain byte mem

end Code

namespace Scene.Faces

variable {branch next : Branch} {text : List UInt8}

theorem opens {function : Control} (limit levels : Nat)
    (faces : scene.Faces course (branch :: branches) (((Builtin.control function).byte :: text) :: others)
      machine address)
    (ignored : branch.action.isIgnored = true) (plain : Store.Plain text)
    (opens : function = .whenTrue ∨ function = .loop ∨ function = .define) :
    Machine.Leads limit levels 2 machine address
      (scene.Faces course (⟨.ignoreHard, 0⟩ :: branch :: branches) others) := by
  have is_line := Code.isLine_builtin (.control function) plain
  exact faces.leads_line is_line (faces.stands.turns_opened ignored (faces.lineEnd is_line) faces.has.1 opens)

theorem passes {function : Control} (limit levels : Nat)
    (faces : scene.Faces course (branch :: branches) (((Builtin.control function).byte :: text) :: others)
      machine address)
    (ignored : branch.action.isIgnored = true) (plain : Store.Plain text)
    (passed : function = .leaveLoop ∨ function = .nextRound ∨
      branch.action = .ignoreHard ∧ (function = .otherwise ∨ function = .otherwiseWhen)) :
    Machine.Leads limit levels 2 machine address (scene.Faces course (branch :: branches) others) := by
  have is_line := Code.isLine_builtin (.control function) plain
  exact faces.leads_line is_line (faces.stands.turns_passed ignored (faces.lineEnd is_line) faces.has.1 passed)

theorem closes (limit levels : Nat)
    (faces : scene.Faces course (branch :: next :: branches) (Code.closeLine :: others) machine address)
    (ignored : branch.action.isIgnored = true) :
    Machine.Leads limit levels 2 machine address (scene.Faces course (next :: branches) others) := by
  have is_line := Code.isLine_alone (.control .close)
  exact faces.leads_line is_line (faces.stands.turns_closed ignored (faces.lineEnd is_line) faces.has.1)

theorem aside (limit levels : Nat) (faces : scene.Faces course (branch :: branches) (line :: others) machine address)
    (ignored : branch.action.isIgnored = true) (is_line : Code.IsLine line)
    (aside : ∀ function, Symbol.builtin? (scene.store.byte address) ≠ some (.control function)) :
    Machine.Leads limit levels 2 machine address (scene.Faces course (branch :: branches) others) :=
  faces.leads_line is_line (faces.stands.turns_skipped ignored (faces.lineEnd is_line) aside)

end Scene.Faces

/-- Skipping a block changes nothing, and skipping what is left of a choice
    closes it. -/
def Code.Skipped (scene : Scene κ) (limit levels : Nat) : ∀ {part : Part}, Code part → Prop
  | .block, code => ∀ {machine : Machine κ} {address : Nat} {course : Course} {branch : Branch}
      {branches : List Branch} {lines : List (List UInt8)}, branch.action.isIgnored = true →
        scene.Faces course (branch :: branches) (code.lines ++ lines) machine address →
          Machine.Leads limit levels (2 * code.lines.length) machine address
            (scene.Faces course (branch :: branches) lines)
  | .arms, code => ∀ {machine : Machine κ} {address : Nat} {course : Course} {branch next : Branch}
      {branches : List Branch} {lines : List (List UInt8)}, branch.action = .ignoreHard →
        scene.Faces course (branch :: next :: branches) (code.lines ++ lines) machine address →
          Machine.Leads limit levels (2 * code.lines.length) machine address
            (scene.Faces course (next :: branches) lines)

namespace Code

theorem builtin?_eq_none_of_startsName : ∀ byte : UInt8, Symbol.startsName byte = true →
    Symbol.builtin? byte = none :=
  forall_byte (by decide +kernel)

/-- A block with its end is skipped as a whole. -/
theorem skipped_block {body rest : Code .block} (skips_body : body.Skipped scene limit levels)
    (skips_rest : rest.Skipped scene limit levels) {function : Control} {text : List UInt8}
    (plain : Store.Plain text) (opens : function = .loop ∨ function = .define) {branch : Branch}
    (ignored : branch.action.isIgnored = true)
    (faces : scene.Faces course (branch :: branches)
      (((Builtin.control function).byte :: text) :: (body.lines ++ closeLine :: (rest.lines ++ others)))
      machine address) :
    Machine.Leads limit levels (2 * (body.lines.length + (rest.lines.length + 1) + 1)) machine address
      (scene.Faces course (branch :: branches) others) := by
  have opened := faces.opens limit levels ignored plain (.inr opens)
  have body_skipped := opened.trans (Nat.le_refl _) fun _ _ faces => skips_body rfl faces
  have closed := body_skipped.trans (Nat.le_refl _) fun _ _ faces => faces.closes limit levels rfl
  exact closed.trans (by omega) fun _ _ faces => skips_rest ignored faces

theorem skipped (scene : Scene κ) (limit levels : Nat) {part : Part} (code : Code part) :
    code.Skipped scene limit levels := by
  induction code with
  | done =>
      intro machine address course branch branches others ignored faces
      exact .here faces
  | assign name operator? formula rest ih =>
      intro machine address course branch branches others ignored faces
      obtain ⟨first, behind, bytes, starts⟩ := name.exists_cons
      have here : scene.store.byte address = first := by
        have has := faces.has
        rw [bytes] at has
        exact has.1
      have aside : ∀ function, Symbol.builtin? (scene.store.byte address) ≠ some (.control function) := by
        intro function
        rw [here, builtin?_eq_none_of_startsName first starts]
        simp
      have passed := faces.aside limit levels ignored (isLine_assign name operator? formula) aside
      exact passed.trans (by simp [lines]; omega) fun _ _ faces => ih ignored faces
  | print formula rest ih =>
      intro machine address course branch branches others ignored faces
      have aside : ∀ function, Symbol.builtin? (scene.store.byte address) ≠ some (.control function) := by
        intro function
        rw [faces.has.1, (Builtin.byte_spec _).2.2.2.2.2.2]
        simp
      have passed := faces.aside limit levels ignored (isLine_builtin _ formula.plain) aside
      exact passed.trans (by simp [lines]; omega) fun _ _ faces => ih ignored faces
  | choose condition body arms rest ih_body ih_arms ih_rest =>
      intro machine address course branch branches others ignored faces
      simp only [lines, List.cons_append, List.append_assoc] at faces
      have opened := faces.opens limit levels ignored condition.plain (.inl rfl)
      have body_skipped := opened.trans (Nat.le_refl _) fun _ _ faces => ih_body rfl faces
      have arms_skipped := body_skipped.trans (Nat.le_refl _) fun _ _ faces => ih_arms rfl faces
      exact arms_skipped.trans (by simp [lines]; omega) fun _ _ faces => ih_rest ignored faces
  | loop condition body rest ih_body ih_rest =>
      intro machine address course branch branches others ignored faces
      simp only [lines, List.cons_append, List.append_assoc] at faces
      exact (skipped_block ih_body ih_rest condition.plain (.inl rfl) ignored faces).mono (by simp [lines])
        fun _ _ faces => faces
  | leaveLoop rest ih =>
      intro machine address course branch branches others ignored faces
      have passed := faces.passes limit levels ignored (by simp [Store.Plain]) (.inl rfl)
      exact passed.trans (by simp [lines]; omega) fun _ _ faces => ih ignored faces
  | nextRound rest ih =>
      intro machine address course branch branches others ignored faces
      have passed := faces.passes limit levels ignored (by simp [Store.Plain]) (.inr (.inl rfl))
      exact passed.trans (by simp [lines]; omega) fun _ _ faces => ih ignored faces
  | define name parameters body rest ih_body ih_rest =>
      intro machine address course branch branches others ignored faces
      simp only [lines, List.cons_append, List.append_assoc] at faces
      exact (skipped_block ih_body ih_rest (plain_headerText name parameters) (.inr rfl) ignored faces).mono
        (by simp [lines]) fun _ _ faces => faces
  | close =>
      intro machine address course branch next branches others hard faces
      have ignored : branch.action.isIgnored = true := by
        rw [hard]
        rfl
      exact faces.closes limit levels ignored
  | otherwise body ih =>
      intro machine address course branch next branches others hard faces
      have ignored : branch.action.isIgnored = true := by
        rw [hard]
        rfl
      simp only [lines, List.cons_append, List.append_assoc, List.nil_append] at faces
      have passed := faces.passes limit levels ignored (by simp [Store.Plain])
        (.inr (.inr ⟨hard, .inl rfl⟩))
      have body_skipped := passed.trans (Nat.le_refl _) fun _ _ faces => ih ignored faces
      exact body_skipped.trans (by simp [lines]; omega) fun _ _ faces => faces.closes limit levels ignored
  | otherwiseWhen condition body arms ih_body ih_arms =>
      intro machine address course branch next branches others hard faces
      have ignored : branch.action.isIgnored = true := by
        rw [hard]
        rfl
      simp only [lines, List.cons_append, List.append_assoc] at faces
      have passed := faces.passes limit levels ignored condition.plain
        (.inr (.inr ⟨hard, .inr rfl⟩))
      have body_skipped := passed.trans (Nat.le_refl _) fun _ _ faces => ih_body ignored faces
      exact body_skipped.trans (by simp [lines]; omega) fun _ _ faces => ih_arms hard faces

end Code

end PocketScript
