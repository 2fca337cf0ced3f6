import PocketScript.Proofs.Memory.Reachability

/-! # The contents of the heap

A value can be used as long as its cell stands for a string or a list. In
consistent contents no two cells stand for one object and everything in a list
can be used. Whatever is done to objects comes down to a few changes of the
contents, each of which keeps them consistent and every value usable.
-/

namespace PocketScript

/-- What the objects hold, by their handles. -/
abbrev Contents := Handle → Option Payload

namespace Contents

/-- A value whose string or list is there. -/
def Live (contents : Contents) : Value → Prop
  | .string cell => ∃ object bytes, contents cell = some (.target object) ∧
      contents object = some (.bytes bytes)
  | .list cell => ∃ object values, contents cell = some (.target object) ∧
      contents object = some (.values values)
  | _ => True

/-- No two cells stand for one object, a cell stands for an object that is there
    or for nothing yet, and all that lists hold is live. -/
structure Consistent (contents : Contents) : Prop where
  dangling : contents .dangling = none
  targets : ∀ cell object, contents cell = some (.target object) →
    object = .dangling ∨ (contents object).isSome
  owned : ∀ cell other object, contents cell = some (.target object) →
    contents other = some (.target object) → (contents object).isSome → cell = other
  items : ∀ object values, contents object = some (.values values) →
    ∀ value ∈ values, contents.Live value

/-- Every value that was live still is. -/
def Keeps (contents other : Contents) : Prop :=
  ∀ value, contents.Live value → other.Live value

theorem Keeps.refl (contents : Contents) : contents.Keeps contents :=
  fun _ live => live

variable {contents other : Contents} {cell object moved handle : Handle} {payload payload' : Payload}

/-- Values stay live if their cells and what these stand for do. -/
theorem Keeps.of_payloads (payloads : ∀ cell object payload, contents cell = some (.target object) →
    contents object = some payload → payload.target? = none →
    ∃ object', other cell = some (.target object') ∧ ∃ payload', other object' = some payload' ∧
      payload'.kind = payload.kind) : contents.Keeps other := by
  intro value live
  cases value with
  | missing | number _ | function _ => trivial
  | string cell =>
      obtain ⟨object, bytes, at_cell, at_object⟩ := live
      obtain ⟨object', there, payload', found, kind⟩ := payloads cell object _ at_cell at_object rfl
      cases payload' with
      | bytes bytes' => exact ⟨object', bytes', there, found⟩
      | target _ | values _ => simp [Payload.kind] at kind
  | list cell =>
      obtain ⟨object, values, at_cell, at_object⟩ := live
      obtain ⟨object', there, payload', found, kind⟩ := payloads cell object _ at_cell at_object rfl
      cases payload' with
      | values values' => exact ⟨object', values', there, found⟩
      | target _ | bytes _ => simp [Payload.kind] at kind

/-- What a new object may hold: a cell stands for nothing yet, and the values of
    a list are live. -/
def Fresh (contents : Contents) : Payload → Prop
  | .target object => object = .dangling
  | .bytes _ => True
  | .values values => ∀ value ∈ values, contents.Live value

/-- A new object. -/
theorem Consistent.insert (consistent : contents.Consistent) (absent : contents handle = none)
    (proper : handle ≠ .dangling) (fresh : contents.Fresh payload)
    (after : ∀ found, other found = if found = handle then some payload else contents found) :
    other.Consistent ∧ contents.Keeps other := by
  obtain ⟨dangling, targets, owned, items⟩ := consistent
  have elsewhere : ∀ found payload, contents found = some payload → other found = some payload := by
    intro found payload before
    rw [after, if_neg]
    · exact before
    · rintro rfl
      simp [absent] at before
  have keeps : contents.Keeps other := .of_payloads fun cell object payload at_cell at_object _ =>
    ⟨object, elsewhere _ _ at_cell, payload, elsewhere _ _ at_object, rfl⟩
  have unowned : ∀ cell, contents cell ≠ some (.target handle) := by
    intro cell at_cell
    rcases targets cell handle at_cell with null | there
    · exact proper null
    · simp [absent] at there
  have before : ∀ cell object, other cell = some (.target object) → (other object).isSome →
      contents cell = some (.target object) ∧ (contents object).isSome := by
    intro cell object at_cell there
    rw [after] at at_cell there
    by_cases new : cell = handle
    · rw [if_pos new, Option.some.injEq] at at_cell
      subst at_cell
      obtain rfl : object = .dangling := fresh
      rw [if_neg proper.symm, dangling] at there
      simp at there
    · rw [if_neg new] at at_cell
      rw [if_neg] at there
      · exact ⟨at_cell, there⟩
      · rintro rfl
        exact unowned cell at_cell
  refine ⟨⟨?_, fun cell object at_cell => ?_, fun cell cell' object at_cell at_cell' there => ?_,
    fun object values at_object value mem => ?_⟩, keeps⟩
  · rw [after, if_neg proper.symm, dangling]
  · rw [after] at at_cell
    split at at_cell
    · rw [Option.some.injEq] at at_cell
      subst at_cell
      exact .inl fresh
    · rcases targets cell object at_cell with null | there
      · exact .inl null
      · obtain ⟨payload, there⟩ := Option.isSome_iff_exists.mp there
        exact .inr (by rw [elsewhere _ _ there]; rfl)
  · obtain ⟨old, there_old⟩ := before cell object at_cell there
    exact owned cell cell' object old (before cell' object at_cell' there).1 there_old
  · rw [after] at at_object
    split at at_object
    · rw [Option.some.injEq] at at_object
      subst at_object
      exact keeps value (fresh value mem)
    · exact keeps value (items object values at_object value mem)

/-- Letting a cell that stood for nothing stand for an object that no cell stood
    for. -/
theorem Consistent.link (consistent : contents.Consistent)
    (at_cell : contents cell = some (.target .dangling)) (at_object : contents object = some payload)
    (no_cell : payload.target? = none) (unowned : ∀ other, contents other ≠ some (.target object))
    (after : ∀ found, other found = if found = cell then some (.target object) else contents found) :
    other.Consistent ∧ contents.Keeps other := by
  obtain ⟨dangling, targets, owned, items⟩ := consistent
  have apart : object ≠ cell := by
    rintro rfl
    rw [at_cell, Option.some.injEq] at at_object
    simp [← at_object, Payload.target?] at no_cell
  have elsewhere : ∀ found, found ≠ cell → other found = contents found :=
    fun found different => by rw [after, if_neg different]
  have some_iff : ∀ found, (other found).isSome ↔ (contents found).isSome := by
    intro found
    rw [after]
    split
    · next same => simp [same, at_cell]
    · rfl
  have keeps : contents.Keeps other := by
    refine .of_payloads fun found target payload at_found at_target no_target => ?_
    have first : found ≠ cell := by
      rintro rfl
      obtain rfl : Handle.dangling = target := by simpa [at_cell] using at_found
      simp [dangling] at at_target
    have second : target ≠ cell := by
      rintro rfl
      rw [at_cell, Option.some.injEq] at at_target
      simp [← at_target, Payload.target?] at no_target
    exact ⟨target, (elsewhere found first).trans at_found, payload,
      (elsewhere target second).trans at_target, rfl⟩
  refine ⟨⟨?_, fun found target at_found => ?_, fun found found' target at_found at_found' there => ?_,
    fun found values at_found value mem => ?_⟩, keeps⟩
  · have := some_iff .dangling
    simpa [dangling] using this
  · rw [some_iff]
    rw [after] at at_found
    split at at_found
    · obtain rfl : object = target := by simpa using at_found
      exact .inr (by simp [at_object])
    · exact targets found target at_found
  · rw [some_iff] at there
    rw [after] at at_found at_found'
    split at at_found <;> split at at_found'
    · next same same' => rw [same, same']
    · obtain rfl : object = target := by simpa using at_found
      exact absurd at_found' (unowned found')
    · obtain rfl : object = target := by simpa using at_found'
      exact absurd at_found (unowned found)
    · exact owned found found' target at_found at_found' there
  · rw [after] at at_found
    split at at_found
    · simp at at_found
    · exact keeps value (items found values at_found value mem)

/-- Replacing what an object holds by something of the same kind. -/
theorem Consistent.replace (consistent : contents.Consistent) (at_object : contents object = some payload)
    (no_cell : payload.target? = none) (kind : payload'.kind = payload.kind)
    (fresh : contents.Fresh payload')
    (after : ∀ found, other found = if found = object then some payload' else contents found) :
    other.Consistent ∧ contents.Keeps other := by
  obtain ⟨dangling, targets, owned, items⟩ := consistent
  have no_cell' : payload'.target? = none := by
    cases payload <;> cases payload' <;> simp_all [Payload.kind, Payload.target?]
  have cells : ∀ cell target, other cell = some (.target target) ↔ contents cell = some (.target target) := by
    intro cell target
    rw [after]
    split
    · next same =>
      rw [same, at_object, Option.some.injEq, Option.some.injEq]
      constructor
      · rintro rfl
        simp [Payload.target?] at no_cell'
      · rintro rfl
        simp [Payload.target?] at no_cell
    · rfl
  have some_iff : ∀ found, (other found).isSome ↔ (contents found).isSome := by
    intro found
    rw [after]
    split
    · next same => simp [same, at_object]
    · rfl
  have keeps : contents.Keeps other := by
    refine .of_payloads fun cell target payload'' at_cell at_target _ => ⟨target, (cells _ _).mpr at_cell, ?_⟩
    rw [after]
    by_cases same : target = object
    · refine ⟨payload', if_pos same, ?_⟩
      rw [same, at_object, Option.some.injEq] at at_target
      rw [kind, at_target]
    · exact ⟨payload'', by rw [if_neg same, at_target], rfl⟩
  refine ⟨⟨?_, fun cell target at_cell => ?_, fun cell cell' target at_cell at_cell' there => ?_,
    fun found values at_found value mem => ?_⟩, keeps⟩
  · have := some_iff .dangling
    simpa [dangling] using this
  · rw [some_iff]
    exact targets cell target ((cells _ _).mp at_cell)
  · exact owned cell cell' target ((cells _ _).mp at_cell) ((cells _ _).mp at_cell')
      ((some_iff target).mp there)
  · rw [after] at at_found
    split at at_found
    · rw [Option.some.injEq] at at_found
      subst at_found
      exact keeps value (fresh value mem)
    · exact keeps value (items found values at_found value mem)

/-- Moving what an object holds to a new object, which the cell stands for then. -/
theorem Consistent.move (consistent : contents.Consistent)
    (at_cell : contents cell = some (.target object)) (at_object : contents object = some payload)
    (no_cell : payload.target? = none) (absent : contents moved = none) (proper : moved ≠ .dangling)
    (after : ∀ found, other found = if found = cell then some (.target moved)
      else if found = moved then some payload else if found = object then none else contents found) :
    other.Consistent ∧ contents.Keeps other := by
  obtain ⟨dangling, targets, owned, items⟩ := consistent
  have cell_moved : cell ≠ moved := by
    rintro rfl
    simp [absent] at at_cell
  have cell_object : cell ≠ object := by
    rintro rfl
    rw [at_cell, Option.some.injEq] at at_object
    simp [← at_object, Payload.target?] at no_cell
  have object_moved : object ≠ moved := by
    rintro rfl
    simp [absent] at at_object
  have cell_proper : cell ≠ .dangling := by
    rintro rfl
    simp [dangling] at at_cell
  have at_cell_after : other cell = some (.target moved) := by rw [after, if_pos rfl]
  have at_moved_after : other moved = some payload := by
    rw [after, if_neg cell_moved.symm, if_pos rfl]
  have elsewhere : ∀ found, found ≠ cell → found ≠ moved → found ≠ object →
      other found = contents found := fun found first second third => by
    rw [after, if_neg first, if_neg second, if_neg third]
  -- Another cell and what it stands for are not among the three.
  have others : ∀ found target, found ≠ cell → contents found = some (.target target) →
      other found = some (.target target) ∧ (contents target).isSome = (other target).isSome ∧
        (contents target = other target ∨ target = cell) := by
    intro found target first at_found
    have second : found ≠ moved := by
      rintro rfl
      simp [absent] at at_found
    have third : found ≠ object := by
      rintro rfl
      rw [at_found, Option.some.injEq] at at_object
      simp [← at_object, Payload.target?] at no_cell
    have target_object : target ≠ object := by
      rintro rfl
      exact first (owned found cell target at_found at_cell (by simp [at_object]))
    have target_moved : target ≠ moved := by
      rintro rfl
      rcases targets found target at_found with null | there
      · exact proper null
      · simp [absent] at there
    refine ⟨(elsewhere found first second third).trans at_found, ?_⟩
    by_cases same : target = cell
    · exact ⟨by simp [same, at_cell, at_cell_after], .inr same⟩
    · have unchanged := elsewhere target same target_moved target_object
      exact ⟨by rw [unchanged], .inl unchanged.symm⟩
  have before : ∀ found target, found ≠ cell → other found = some (.target target) →
      contents found = some (.target target) := by
    intro found target first at_found
    rw [after, if_neg first] at at_found
    split at at_found
    · rw [Option.some.injEq] at at_found
      simp [at_found, Payload.target?] at no_cell
    · split at at_found
      · simp at at_found
      · exact at_found
  have keeps : contents.Keeps other := by
    refine .of_payloads fun found target payload' at_found at_target no_target => ?_
    by_cases same : found = cell
    · subst same
      obtain rfl : object = target := by simpa [at_cell] using at_found
      rw [at_object, Option.some.injEq] at at_target
      exact ⟨moved, at_cell_after, payload, at_moved_after, by rw [at_target]⟩
    · obtain ⟨there, -, unchanged⟩ := others found target same at_found
      refine ⟨target, there, payload', ?_, rfl⟩
      rcases unchanged with unchanged | rfl
      · rw [← unchanged, at_target]
      · rw [at_cell, Option.some.injEq] at at_target
        simp [← at_target, Payload.target?] at no_target
  refine ⟨⟨?_, fun found target at_found => ?_, fun found found' target at_found at_found' there => ?_,
    fun found values at_found value mem => ?_⟩, keeps⟩
  · rw [after, if_neg cell_proper.symm, if_neg proper.symm]
    split
    · rfl
    · exact dangling
  · by_cases same : found = cell
    · subst same
      obtain rfl : moved = target := by simpa [at_cell_after] using at_found
      exact .inr (by simp [at_moved_after])
    · have old := before found target same at_found
      rw [← (others found target same old).2.1]
      exact targets found target old
  · have new_unowned : ∀ found, found ≠ cell → other found ≠ some (.target moved) := by
      intro found same at_found
      have old := before found moved same at_found
      rcases targets found moved old with null | there
      · exact proper null
      · simp [absent] at there
    by_cases same : found = cell <;> by_cases same' : found' = cell
    · rw [same, same']
    · subst same
      obtain rfl : moved = target := by simpa [at_cell_after] using at_found
      exact absurd at_found' (new_unowned found' same')
    · subst same'
      obtain rfl : moved = target := by simpa [at_cell_after] using at_found'
      exact absurd at_found (new_unowned found same)
    · have old := before found target same at_found
      refine owned found found' target old (before found' target same' at_found') ?_
      rw [(others found target same old).2.1]
      exact there
  · rw [after] at at_found
    split at at_found
    · simp at at_found
    · split at at_found
      · rw [Option.some.injEq] at at_found
        exact keeps value (items object values (at_object.trans (congrArg some at_found)) value mem)
      · split at at_found
        · simp at at_found
        · exact keeps value (items found values at_found value mem)

end Contents

end PocketScript
