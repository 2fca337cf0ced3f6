import PocketScript.Proofs.Memory.Mirroring

/-! # Operations on memories alike

The same operation on two memories that are alike but for handles ends alike,
unless one of them lacks bytes or has lost an object, or so many objects were
allocated that handles come again. A new string or list adds to the pairing.
-/

namespace PocketScript

variable {α : Type} {pairing next : Pairing} {memory other after after' : Memory} {cell cell' : Handle}
  {value value' : Value} {payload payload' : Payload}

namespace MemoryM

/-- Two operations end with results that are related, or with the same error,
    unless one of them is refused for a ruinous one. -/
inductive Tallies (related : α → Memory → α → Memory → Prop) :
    EStateM.Result MemoryError Memory α → EStateM.Result MemoryError Memory α → Prop where
  | ruined {error : MemoryError} (ruinous : error.IsRuinous) (after : Memory)
      (second : EStateM.Result MemoryError Memory α) : Tallies related (.error error after) second
  | ruined' {error : MemoryError} (ruinous : error.IsRuinous) (after : Memory)
      (first : EStateM.Result MemoryError Memory α) : Tallies related first (.error error after)
  | error (error : MemoryError) (after after' : Memory) : Tallies related (.error error after) (.error error after')
  | ok {result result' : α} {after after' : Memory} (holds : related result after result' after') :
      Tallies related (.ok result after) (.ok result' after')

/-- Results in memories that are alike under the same pairing. -/
def Level (pairing : Pairing) (done : α → α → Prop) (result : α) (after : Memory) (result' : α) (after' : Memory) :
    Prop :=
  after.Mirrors pairing after' ∧ done result result'

/-- Results in memories that are alike under the pairing that new cells lead to,
    unless allocations are spent. -/
def Grown (pairing : Pairing) (done : Pairing → α → α → Prop) (result : α) (after : Memory) (result' : α)
    (after' : Memory) : Prop :=
  ¬ after.heap.Spent → ¬ after'.heap.Spent →
    ∃ next, pairing ≤ next ∧ after.Mirrors next after' ∧ done next result result'

end MemoryM

namespace Memory

open MemoryM

theorem Mirrors.look (mirrors : memory.Mirrors pairing other) {view view' : Memory → Except MemoryError α}
    {done : α → α → Prop} (agrees : Agrees done (view memory) (view' other)) :
    Tallies (Level pairing done) (Memory.look view memory) (Memory.look view' other) := by
  unfold Memory.look
  generalize view memory = first, view' other = second at agrees ⊢
  cases agrees with
  | ruined ruinous _ => exact .ruined ruinous _ _
  | ruined' ruinous _ => exact .ruined' ruinous _ _
  | error error => exact .error error _ _
  | ok holds => exact .ok ⟨mirrors, holds⟩

theorem Mirrors.onStack (mirrors : memory.Mirrors pairing other) {done : α → α → Prop}
    {operation operation' : ScopeStack → (ceiling : Nat) → Except MemoryError (α × ScopeStack)}
    (agrees : Agrees (fun ended ended' => done ended.1 ended'.1 ∧ ended.2.Mirrors pairing ended'.2)
      (operation memory.stack memory.heap.boundary) (operation' other.stack other.heap.boundary)) :
    Tallies (Level pairing done) (Memory.onStack operation memory) (Memory.onStack operation' other) := by
  unfold Memory.onStack
  generalize operation memory.stack memory.heap.boundary = first,
    operation' other.stack other.heap.boundary = second at agrees ⊢
  cases agrees with
  | ruined ruinous _ => exact .ruined ruinous _ _
  | ruined' ruinous _ => exact .ruined' ruinous _ _
  | error error => exact .error error _ _
  | ok holds => exact .ok ⟨mirrors.withStack holds.2, holds.1⟩

theorem ruinous_collision : MemoryError.collision.IsRuinous :=
  .inl rfl

theorem Mirrors.pushScope (mirrors : memory.Mirrors pairing other) :
    Tallies (Level pairing fun _ _ => True) (Memory.pushScope memory) (Memory.pushScope other) := by
  refine mirrors.onStack ?_
  unfold ScopeStack.pushScope
  dsimp only
  split
  · exact .ruined ruinous_collision _
  · split
    · exact .ruined' ruinous_collision _
    · exact .ok ⟨trivial, Pointwise.push mirrors.stack ⟨rfl, fun _ => by simp [Scope.opened]⟩⟩

theorem Mirrors.createVariable (mirrors : memory.Mirrors pairing other) (name : String)
    (alike : value.Mirrors pairing value') :
    Tallies (Level pairing Eq) (Memory.createVariable name value memory) (Memory.createVariable name value' other) := by
  have size := Pointwise.size_eq mirrors.stack
  have here := mirrors.stack.innermost
  refine mirrors.onStack ?_
  unfold ScopeStack.createVariable
  generalize memory.stack.innermost? = scope, other.stack.innermost? = scope' at here ⊢
  cases here with
  | none => exact .ruined ruinous_collision _
  | some scopes =>
      dsimp only
      split
      · exact .ruined ruinous_collision _
      · split
        · exact .ruined' ruinous_collision _
        · refine .ok ⟨by rw [size, scopes.bindings.size_eq], mirrors.stack.setInnermost ⟨scopes.branches, ?_⟩⟩
          exact scopes.bindings.push ⟨rfl, alike⟩

theorem Mirrors.pushBranch (mirrors : memory.Mirrors pairing other) (action : BranchAction) (address : Address) :
    Tallies (Level pairing fun _ _ => True) (Memory.pushBranch action address memory)
      (Memory.pushBranch action address other) := by
  have here := mirrors.stack.innermost
  refine mirrors.onStack ?_
  unfold ScopeStack.pushBranch
  generalize memory.stack.innermost? = scope, other.stack.innermost? = scope' at here ⊢
  cases here with
  | none => exact .ruined ruinous_collision _
  | @some scope scope' scopes =>
      have opened : ∀ {used used' records records' : Nat},
          (memory.stack.setInnermost { scope with
              branches := ⟨action, address⟩ :: scope.branches, used, records }).Mirrors pairing
            (other.stack.setInnermost { scope' with
              branches := ⟨action, address⟩ :: scope'.branches, used := used', records := records' }) :=
        mirrors.stack.setInnermost ⟨by rw [scopes.branches], scopes.bindings⟩
      dsimp only
      split
      · split
        · exact .ok ⟨trivial, opened⟩
        · split
          · exact .ruined' ruinous_collision _
          · exact .ok ⟨trivial, opened⟩
      · split
        · exact .ruined ruinous_collision _
        · split
          · exact .ok ⟨trivial, opened⟩
          · split
            · exact .ruined' ruinous_collision _
            · exact .ok ⟨trivial, opened⟩

theorem Mirrors.setVariable (mirrors : memory.Mirrors pairing other) (place : VariableRef)
    (alike : value.Mirrors pairing value') :
    Tallies (Level pairing Eq) (Memory.setVariable place value memory) (Memory.setVariable place value' other) := by
  have here := mirrors.stack.variableAt? place
  unfold Memory.setVariable
  generalize memory.stack.variableAt? place = binding, other.stack.variableAt? place = binding' at here ⊢
  cases here with
  | none => exact .error .dangling _ _
  | some _ => exact .ok ⟨mirrors.withStack (mirrors.stack.setVariable place alike), rfl⟩

theorem issued_of_payload (reads : memory.payload cell = .ok payload) : memory.heap.Issued cell := by
  obtain ⟨object, found, target, -⟩ := target?_of_payload reads
  rw [Heap.target?, Option.bind_eq_some_iff] at target
  obtain ⟨held, there, -⟩ := target
  exact Heap.issued_of_get? there

/-- What is read through two paired cells is changed alike. -/
theorem Mirrors.edited (mirrors : memory.Mirrors pairing other) (paired : pairing cell cell')
    (edited : memory.Edited cell payload after) (edited' : other.Edited cell' payload' after')
    (alike : payload.Mirrors pairing payload') (ages : memory.heap.Ages after.heap)
    (ages' : other.heap.Ages after'.heap) (unspent : ¬ after.heap.Spent) (unspent' : ¬ after'.heap.Spent) :
    after.Mirrors pairing after' := by
  refine ⟨⟨edited.separate, ages.counted⟩, ⟨edited'.separate, ages'.counted⟩, fun found found' pair => ?_,
    mirrors.paired, fun found found' held held' pair reads reads' => ?_, ?_⟩
  · obtain ⟨issued, issued'⟩ := mirrors.issued found found' pair
    exact ⟨ages.issued unspent found issued, ages'.issued unspent' found' issued'⟩
  · by_cases same : found = cell
    · have same' := (mirrors.paired cell cell' found found' paired pair).mp same
      rw [same, edited.reads, Except.ok.injEq] at reads
      rw [same', edited'.reads, Except.ok.injEq] at reads'
      exact reads ▸ reads' ▸ alike
    · have different' := fun same' => same ((mirrors.paired cell cell' found found' paired pair).mpr same')
      rw [edited.others found same] at reads
      rw [edited'.others found' different'] at reads'
      exact mirrors.reads found found' held held' pair reads reads'
  · rw [edited.rest, edited'.rest]
    exact mirrors.stack

/-- Two new cells go together. -/
theorem Mirrors.inserted (mirrors : memory.Mirrors pairing other) (fresh : ¬ memory.heap.Issued cell)
    (fresh' : ¬ other.heap.Issued cell') (edited : memory.Edited cell payload after)
    (edited' : other.Edited cell' payload' after') (alike : payload.Mirrors pairing payload')
    (ages : memory.heap.Ages after.heap) (ages' : other.heap.Ages after'.heap) (unspent : ¬ after.heap.Spent)
    (unspent' : ¬ after'.heap.Spent) : after.Mirrors (pairing.insert cell cell') after' := by
  have grown := pairing.le_insert cell cell'
  have different : ∀ found found', pairing found found' → found ≠ cell ∧ found' ≠ cell' := by
    intro found found' pair
    obtain ⟨issued, issued'⟩ := mirrors.issued found found' pair
    exact ⟨fun same => fresh (same ▸ issued), fun same => fresh' (same ▸ issued')⟩
  refine ⟨⟨edited.separate, ages.counted⟩, ⟨edited'.separate, ages'.counted⟩, ?_, ?_, ?_, ?_⟩
  · rintro found found' (pair | ⟨rfl, rfl⟩)
    · obtain ⟨issued, issued'⟩ := mirrors.issued found found' pair
      exact ⟨ages.issued unspent found issued, ages'.issued unspent' found' issued'⟩
    · exact ⟨issued_of_payload edited.reads, issued_of_payload edited'.reads⟩
  · rintro first first' found found' (pair | ⟨rfl, rfl⟩) (pair' | ⟨rfl, rfl⟩)
    · exact mirrors.paired first first' found found' pair pair'
    · simp [(different first first' pair).1.symm, (different first first' pair).2.symm]
    · simp [(different found found' pair').1, (different found found' pair').2]
    · simp
  · rintro found found' held held' (pair | ⟨rfl, rfl⟩) reads reads'
    · rw [edited.others found (different found found' pair).1] at reads
      rw [edited'.others found' (different found found' pair).2] at reads'
      exact (mirrors.reads found found' held held' pair reads reads').mono grown
    · rw [edited.reads, Except.ok.injEq] at reads
      rw [edited'.reads, Except.ok.injEq] at reads'
      exact reads ▸ reads' ▸ alike.mono grown
  · rw [edited.rest, edited'.rest]
    exact mirrors.stack.mono grown

end Memory

/-- The same change of a cell that goes with another, with values alike. -/
inductive Edit.Mirrors (pairing : Pairing) : Edit → Edit → Prop where
  | insertElement {sequence sequence' element element' : Value} (target : sequence.Mirrors pairing sequence')
      (index : Int) (alike : element.Mirrors pairing element') :
      Mirrors pairing (.insertElement sequence index element) (.insertElement sequence' index element')
  | insertSequence {sequence sequence' source source' : Value} (target : sequence.Mirrors pairing sequence')
      (index : Int) (alike : source.Mirrors pairing source') :
      Mirrors pairing (.insertSequence sequence index source) (.insertSequence sequence' index source')
  | removeSlice {sequence sequence' : Value} (target : sequence.Mirrors pairing sequence') (start finish : Int) :
      Mirrors pairing (.removeSlice sequence start finish) (.removeSlice sequence' start finish)
  | setByte {cell cell' : Handle} (paired : pairing cell cell') (index : Nat) (byte : UInt8) :
      Mirrors pairing (.setByte cell index byte) (.setByte cell' index byte)
  | setElement {cell cell' : Handle} {value value' : Value} (paired : pairing cell cell') (index : Nat)
      (alike : value.Mirrors pairing value') :
      Mirrors pairing (.setElement cell index value) (.setElement cell' index value')

theorem forall₂_insertIdx {related : α → α → Prop} {items items' : List α} {item item' : α}
    (alike : List.Forall₂ related items items') (new : related item item') (index : Nat) :
    List.Forall₂ related (items.insertIdx index item) (items'.insertIdx index item') := by
  induction alike generalizing index with
  | nil =>
      cases index with
      | zero => exact .cons new .nil
      | succ index => exact .nil
  | cons first rest ih =>
      cases index with
      | zero => exact .cons new (.cons first rest)
      | succ index => exact .cons first (ih index)

theorem forall₂_set {related : α → α → Prop} {items items' : List α} {item item' : α}
    (alike : List.Forall₂ related items items') (new : related item item') (index : Nat) :
    List.Forall₂ related (items.set index item) (items'.set index item') := by
  induction alike generalizing index with
  | nil => exact .nil
  | cons first rest ih =>
      cases index with
      | zero => exact .cons new rest
      | succ index => exact .cons first (ih index)

namespace Memory

open MemoryM

namespace Mirrors

theorem edit_result (mirrors : memory.Mirrors pairing other) {edit edit' : Edit}
    (alike : edit.Mirrors pairing edit') :
    Agrees (Payload.Mirrors pairing) (edit.outcome memory) (edit'.outcome other) := by
  cases alike with
  | insertElement target index element =>
      cases target with
      | missing | number _ | function _ => exact .error .badType
      | string paired =>
          cases element with
          | missing | string _ | list _ | function _ => exact .error .badType
          | number number =>
              refine (mirrors.string paired).bind ?_
              rintro bytes _ rfl
              refine (Agrees.refl (checkPlace index bytes.length)).bind ?_
              rintro place _ rfl
              exact .ok (.bytes _)
      | list paired =>
          refine (mirrors.list paired).bind fun values values' held => ?_
          rw [held.length_eq]
          refine (Agrees.refl _).bind ?_
          rintro place _ rfl
          exact .ok (.values (forall₂_insertIdx held element place))
  | insertSequence target index source =>
      cases target with
      | missing | number _ | function _ => exact .error .badType
      | string paired =>
          cases source with
          | missing | number _ | list _ | function _ => exact .error .badType
          | string paired' =>
              refine (mirrors.string paired').bind ?_
              rintro part _ rfl
              refine (mirrors.string paired).bind ?_
              rintro bytes _ rfl
              refine (Agrees.refl (checkPlace index bytes.length)).bind ?_
              rintro place _ rfl
              exact .ok (.bytes _)
      | list paired =>
          cases source with
          | missing | number _ | string _ | function _ => exact .error .badType
          | list paired' =>
              refine (mirrors.list paired').bind fun part part' new => ?_
              refine (mirrors.list paired).bind fun values values' held => ?_
              rw [held.length_eq]
              refine (Agrees.refl _).bind ?_
              rintro place _ rfl
              have front := List.rel_append (List.forall₂_take place held) new
              exact .ok (.values (List.rel_append front (List.forall₂_drop place held)))
  | removeSlice target start finish =>
      cases target with
      | missing | number _ | function _ => exact .error .badType
      | string paired =>
          refine (mirrors.string paired).bind ?_
          rintro bytes _ rfl
          refine (Agrees.refl (checkRange start finish bytes.length)).bind ?_
          rintro range _ rfl
          exact .ok (.bytes _)
      | list paired =>
          refine (mirrors.list paired).bind fun values values' held => ?_
          rw [held.length_eq]
          refine (Agrees.refl _).bind ?_
          rintro range _ rfl
          exact .ok (.values (List.rel_append (List.forall₂_take range.1 held) (List.forall₂_drop range.2 held)))
  | setByte paired index byte =>
      refine (mirrors.string paired).bind ?_
      rintro bytes _ rfl
      split
      · exact .ok (.bytes _)
      · exact .error .badIndex
  | setElement paired index element =>
      refine (mirrors.list paired).bind fun values values' held => ?_
      rw [held.length_eq]
      split
      · exact .ok (.values (forall₂_set held element index))
      · exact .error .badIndex

end Mirrors

/-- An operation ends with a payload that is given as a list-level result, or with
    the error that the result is, or for want of bytes. -/
def Realizes (operation : MemoryM α) (memory : Memory) (result : Except MemoryError Payload)
    (done : α → Memory → Payload → Prop) : Prop :=
  Ends operation memory (fun value after => ∃ payload, result = .ok payload ∧ done value after payload)
    fun error _ => result = .error error ∨ error = .collision

theorem Realizes.tallies {operation operation' : MemoryM α} {result result' : Except MemoryError Payload}
    {done done' : α → Memory → Payload → Prop} {related : α → Memory → α → Memory → Prop}
    (realizes : Realizes operation memory result done) (realizes' : Realizes operation' other result' done')
    (agrees : Agrees (Payload.Mirrors pairing) result result')
    (relates : ∀ value after payload value' after' payload', done value after payload → done' value' after' payload' →
      payload.Mirrors pairing payload' → related value after value' after') :
    Tallies related (operation memory) (operation' other) := by
  unfold Realizes Ends at realizes realizes'
  generalize operation memory = first, operation' other = second at realizes realizes' ⊢
  rcases first with ⟨value, after⟩ | ⟨error, after⟩ <;> rcases second with ⟨value', after'⟩ | ⟨error', after'⟩
  · obtain ⟨payload, rfl, holds⟩ := realizes
    obtain ⟨payload', rfl, holds'⟩ := realizes'
    cases agrees with
    | ok alike => exact .ok (relates _ _ _ _ _ _ holds holds' alike)
  · obtain ⟨payload, rfl, -⟩ := realizes
    rcases realizes' with rfl | rfl
    · cases agrees with
      | ruined' ruinous _ => exact .ruined' ruinous _ _
    · exact .ruined' ruinous_collision _ _
  · obtain ⟨payload', rfl, -⟩ := realizes'
    rcases realizes with rfl | rfl
    · cases agrees with
      | ruined ruinous _ => exact .ruined ruinous _ _
    · exact .ruined ruinous_collision _ _
  · rcases realizes with rfl | rfl
    · rcases realizes' with rfl | rfl
      · cases agrees with
        | ruined ruinous _ => exact .ruined ruinous _ _
        | ruined' ruinous _ => exact .ruined' ruinous _ _
        | error error => exact .error error _ _
      · exact .ruined' ruinous_collision _ _
    · exact .ruined ruinous_collision _ _

theorem Tidy.realizes_edit (tidy : memory.Tidy) (edit : Edit) (named : edit.cell? = some cell) :
    Realizes edit.run memory (edit.outcome memory) fun _ after payload =>
      memory.Edited cell payload after ∧ memory.heap.Ages after.heap := by
  refine ((tidy.separate.edit edit named).and (tidy.edit edit)).mono ?_ ?_
  · rintro _ after ⟨⟨payload, result, edited⟩, ages⟩
    exact ⟨payload, result, edited, ages⟩
  · rintro error after ⟨⟨-, result⟩, -⟩
    exact result.imp_right (·.1)

theorem Edit.Mirrors.cells {edit edit' : Edit} (alike : edit.Mirrors pairing edit') :
    Option.Rel pairing edit.cell? edit'.cell? := by
  have named : ∀ {value value' : Value}, value.Mirrors pairing value' →
      Option.Rel pairing value.cell? value'.cell? := by
    intro value value' alike
    cases alike with
    | missing | number _ | function _ => exact .none
    | string paired | list paired => exact .some paired
  cases alike with
  | insertElement target _ _ | insertSequence target _ _ | removeSlice target _ _ => exact named target
  | setByte paired _ _ | setElement paired _ _ => exact .some paired

theorem Mirrors.edit (mirrors : memory.Mirrors pairing other) {edit edit' : Edit}
    (alike : edit.Mirrors pairing edit') :
    Tallies (Grown pairing fun _ _ _ => True) (edit.run memory) (edit'.run other) := by
  have cells := Edit.Mirrors.cells alike
  cases named : edit.cell? with
  | none =>
      rw [named] at cells
      cases named' : edit'.cell? with
      | some cell' => simp [named'] at cells
      | none =>
          rw [edit.run_of_unnamed named, edit'.run_of_unnamed named']
          exact .error .badType _ _
  | some cell =>
      rw [named] at cells
      cases named' : edit'.cell? with
      | none => simp [named'] at cells
      | some cell' =>
          have paired : pairing cell cell' := by simpa [named'] using cells
          refine (mirrors.tidy.realizes_edit edit named).tallies (mirrors.tidy'.realizes_edit edit' named')
            (mirrors.edit_result alike) ?_
          rintro _ after payload _ after' payload' ⟨edited, ages⟩ ⟨edited', ages'⟩ alike unspent unspent'
          exact ⟨pairing, le_refl _, mirrors.edited paired edited edited' alike ages ages' unspent unspent', trivial⟩

end Memory

/-- The same new string or list, made of cells that go together. -/
inductive Copy.Mirrors (pairing : Pairing) : Copy → Copy → Prop where
  | slice {sequence sequence' : Value} (source : sequence.Mirrors pairing sequence') (start finish : Int) :
      Mirrors pairing (.slice sequence start finish) (.slice sequence' start finish)
  | whole {sequence sequence' : Value} (source : sequence.Mirrors pairing sequence') :
      Mirrors pairing (.whole sequence) (.whole sequence')
  | concatenation {left left' right right' : Handle} (front : pairing left left') (back : pairing right right') :
      Mirrors pairing (.concatenation left right) (.concatenation left' right')

namespace Memory

open MemoryM

theorem Mirrors.copy_result (mirrors : memory.Mirrors pairing other) {copy copy' : Copy}
    (alike : copy.Mirrors pairing copy') :
    Agrees (Payload.Mirrors pairing) (copy.outcome memory) (copy'.outcome other) := by
  cases alike with
  | slice source start finish =>
      cases source with
      | missing | number _ | function _ => exact .error .badType
      | string paired =>
          refine (mirrors.string paired).bind ?_
          rintro bytes _ rfl
          refine (Agrees.refl (checkRange start finish bytes.length)).bind ?_
          rintro range _ rfl
          exact .ok (.bytes _)
      | list paired =>
          refine (mirrors.list paired).bind fun values values' held => ?_
          rw [held.length_eq]
          refine (Agrees.refl _).bind ?_
          rintro range _ rfl
          exact .ok (.values (List.forall₂_drop range.1 (List.forall₂_take range.2 held)))
  | whole source =>
      cases source with
      | missing | number _ | function _ => exact .error .badType
      | string paired =>
          refine (mirrors.string paired).bind ?_
          rintro bytes _ rfl
          exact .ok (.bytes _)
      | list paired => exact (mirrors.list paired).bind fun values values' held => .ok (.values held)
  | concatenation front back =>
      refine (mirrors.string front).bind ?_
      rintro bytes _ rfl
      refine (mirrors.string back).bind ?_
      rintro bytes' _ rfl
      exact .ok (.bytes _)

/-- A string or list is read through a cell that is new. -/
def Held (memory : Memory) (cell : Handle) (after : Memory) (payload : Payload) : Prop :=
  ¬ memory.heap.Issued cell ∧ memory.Edited cell payload after ∧ memory.heap.Ages after.heap

theorem Tidy.realizes_createSequence (tidy : memory.Tidy) (no_cell : payload.target? = none) :
    Realizes (Memory.createSequence payload.room payload) memory (.ok payload) memory.Held := by
  have creates := tidy.separate.createSequence no_cell (Nat.le_refl payload.room)
  refine (creates.and (tidy.createSequence payload.room payload)).mono ?_ ?_
  · rintro cell after ⟨⟨edited, -⟩, fresh, ages⟩
    exact ⟨payload, rfl, fresh, edited, ages⟩
  · rintro error after ⟨⟨collision, -⟩, -⟩
    exact .inr collision

theorem Tidy.realizes_copy (tidy : memory.Tidy) (copy : Copy) :
    Realizes copy.run memory (copy.outcome memory) fun value after payload =>
      ∃ cell, value = payload.value cell ∧ memory.Held cell after payload := by
  refine (Ends.and (tidy.separate.copy copy) (tidy.copy copy)).mono ?_ ?_
  · rintro _ after ⟨⟨cell, payload, result, rfl, -, edited⟩, ⟨found, named, fresh⟩, ages⟩
    refine ⟨payload, result, cell, rfl, ?_, edited, ages⟩
    cases payload with
    | target _ => cases named
    | bytes _ | values _ => exact Option.some.inj named ▸ fresh
  · rintro error after ⟨⟨-, -, result⟩, -⟩
    exact result.imp_right (·.1)

theorem Mirrors.held (mirrors : memory.Mirrors pairing other) (held : memory.Held cell after payload)
    (held' : other.Held cell' after' payload') (alike : payload.Mirrors pairing payload')
    (unspent : ¬ after.heap.Spent) (unspent' : ¬ after'.heap.Spent) :
    after.Mirrors (pairing.insert cell cell') after' :=
  mirrors.inserted held.1 held'.1 held.2.1 held'.2.1 alike held.2.2 held'.2.2 unspent unspent'

theorem Mirrors.createSequence (mirrors : memory.Mirrors pairing other) (alike : payload.Mirrors pairing payload') :
    Tallies (Grown pairing fun next => next) (Memory.createSequence payload.room payload memory)
      (Memory.createSequence payload'.room payload' other) := by
  have no_cell : payload.target? = none ∧ payload'.target? = none := by
    cases alike with
    | bytes _ | values _ => exact ⟨rfl, rfl⟩
  refine (mirrors.tidy.realizes_createSequence no_cell.1).tallies (mirrors.tidy'.realizes_createSequence no_cell.2)
    (.ok alike) fun cell after payload cell' after' payload' held held' alike unspent unspent' => ?_
  exact ⟨pairing.insert cell cell', pairing.le_insert cell cell', mirrors.held held held' alike unspent unspent',
    .inr ⟨rfl, rfl⟩⟩

theorem Mirrors.copy (mirrors : memory.Mirrors pairing other) {copy copy' : Copy} (alike : copy.Mirrors pairing copy') :
    Tallies (Grown pairing Value.Mirrors) (copy.run memory) (copy'.run other) := by
  refine (mirrors.tidy.realizes_copy copy).tallies (mirrors.tidy'.realizes_copy copy') (mirrors.copy_result alike) ?_
  rintro _ after payload _ after' payload' ⟨cell, rfl, held⟩ ⟨cell', rfl, held'⟩ alike unspent unspent'
  refine ⟨pairing.insert cell cell', pairing.le_insert cell cell', mirrors.held held held' alike unspent unspent', ?_⟩
  cases alike with
  | bytes _ => exact .string (.inr ⟨rfl, rfl⟩)
  | values _ => exact .list (.inr ⟨rfl, rfl⟩)

/-- Objects are lost at most, and none appears. -/
structure Fades (memory after : Memory) : Prop where
  tidy : after.Tidy
  ages : memory.heap.Ages after.heap
  reads : ∀ cell payload, after.payload cell = .ok payload → memory.payload cell = .ok payload
  stack : after.stack = memory.stack

theorem Tidy.fades (tidy : memory.Tidy) : memory.Fades memory :=
  ⟨tidy, .refl tidy.counted, fun _ _ reads => reads, rfl⟩

theorem Tidy.fades_collect (tidy : memory.Tidy) : memory.Fades memory.collect.2 := by
  obtain ⟨tidy', ages⟩ := tidy.collect
  refine ⟨tidy', ages, fun cell payload reads => ?_, rfl⟩
  obtain ⟨object, at_cell, at_object⟩ := payload_eq_ok_iff_contents.mp reads
  exact payload_eq_ok_iff_contents.mpr
    ⟨object, tidy.separate.contents_of_collect at_cell, tidy.separate.contents_of_collect at_object⟩

/-- What is read is alike as long as something is read, whatever was lost. -/
theorem Mirrors.fades (mirrors : memory.Mirrors pairing other) (fades : memory.Fades after)
    (fades' : other.Fades after') (unspent : ¬ after.heap.Spent) (unspent' : ¬ after'.heap.Spent) :
    after.Mirrors pairing after' := by
  refine ⟨fades.tidy, fades'.tidy, fun cell cell' paired => ?_, mirrors.paired,
    fun cell cell' payload payload' paired reads reads' => ?_, ?_⟩
  · obtain ⟨issued, issued'⟩ := mirrors.issued cell cell' paired
    exact ⟨fades.ages.issued unspent cell issued, fades'.ages.issued unspent' cell' issued'⟩
  · exact mirrors.reads cell cell' payload payload' paired (fades.reads cell payload reads)
      (fades'.reads cell' payload' reads')
  · rw [fades.stack, fades'.stack]
    exact mirrors.stack

end Memory

end PocketScript
