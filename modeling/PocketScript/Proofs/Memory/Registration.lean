import PocketScript.Memory.Root

/-! # Registrations

What the roots list themselves, and that while something is evaluated roots are
only added: a registration stays where it is, and one of values may get more of
them, until all that was added is dropped again.
-/

namespace PocketScript

/-- The values that a root itself lists. -/
def Root.registered : Root → List Value
  | .value held => [held]
  | .values held => held
  | .scope _ => []

/-- A value that a root lists. -/
def Roots.Registered (roots : Roots) (value : Value) : Prop :=
  ∃ root ∈ roots, value ∈ root.registered

/-- A registration of values may get more of them. -/
def Root.Grows (root grown : Root) : Prop :=
  grown = root ∨ ∃ held more, root = .values held ∧ grown = .values (held ++ more)

theorem Root.Grows.trans {root grown last : Root} (first : root.Grows grown) (second : grown.Grows last) :
    root.Grows last := by
  rcases first with rfl | ⟨held, more, rfl, rfl⟩
  · exact second
  · rcases second with rfl | ⟨held', more', same, rfl⟩
    · exact .inr ⟨held, more, rfl, rfl⟩
    · obtain rfl := Root.values.inj same
      exact .inr ⟨held, more ++ more', rfl, by rw [List.append_assoc]⟩

theorem Root.Grows.registered {root grown : Root} (grows : root.Grows grown) {value : Value}
    (mem : value ∈ root.registered) : value ∈ grown.registered := by
  rcases grows with rfl | ⟨held, more, rfl, rfl⟩
  · exact mem
  · exact List.mem_append_left _ mem

namespace Roots

variable {roots other third : Roots} {value : Value} {index : Nat}

/-- The registrations are still there, at the same indices. -/
def Extends (roots other : Roots) : Prop :=
  ∀ (index : Nat) (root : Root), roots[index]? = some root →
    ∃ grown, other[index]? = some grown ∧ root.Grows grown

theorem Extends.refl (roots : Roots) : roots.Extends roots :=
  fun _ root here => ⟨root, here, .inl rfl⟩

theorem Extends.trans (first : roots.Extends other) (second : other.Extends third) :
    roots.Extends third := by
  intro index root here
  obtain ⟨grown, there, grows⟩ := first index root here
  obtain ⟨last, at_last, grows'⟩ := second index grown there
  exact ⟨last, at_last, grows.trans grows'⟩

theorem Extends.size_le (since : roots.Extends other) : roots.size ≤ other.size := by
  rcases Nat.eq_zero_or_pos roots.size with none | some_root
  · omega
  · have here : roots[roots.size - 1]? = some (roots[roots.size - 1]) := by
      rw [Array.getElem?_eq_getElem]
    obtain ⟨grown, there, -⟩ := since _ _ here
    have := (Array.getElem?_eq_some_iff.mp there).1
    omega

theorem Extends.registered (since : roots.Extends other) (registered : roots.Registered value) :
    other.Registered value := by
  obtain ⟨root, mem, holds⟩ := registered
  obtain ⟨index, here⟩ := Array.mem_iff_getElem?.mp mem
  obtain ⟨grown, there, grows⟩ := since index root here
  exact ⟨grown, Array.mem_iff_getElem?.mpr ⟨index, there⟩, grows.registered holds⟩

theorem Extends.mem_scope (since : roots.Extends other) {scope : Nat} (mem : Root.scope scope ∈ roots) :
    Root.scope scope ∈ other := by
  obtain ⟨index, here⟩ := Array.mem_iff_getElem?.mp mem
  obtain ⟨grown, there, grows⟩ := since index _ here
  rcases grows with rfl | ⟨held, more, absurd, -⟩
  · exact Array.mem_iff_getElem?.mpr ⟨index, there⟩
  · simp at absurd

theorem extends_push (roots : Roots) (root : Root) : roots.Extends (roots.push root) := by
  intro index held here
  have inside := (Array.getElem?_eq_some_iff.mp here).1
  refine ⟨held, ?_, .inl rfl⟩
  rw [Array.getElem?_push, if_neg (by omega), here]

theorem extends_track (roots : Roots) (value : Value) : roots.Extends (roots.track value) := by
  rw [track]
  split
  · exact extends_push roots _
  · exact .refl roots

theorem extends_trackIn (roots : Roots) (index : Nat) (value : Value) :
    roots.Extends (roots.trackIn index value) := by
  intro position root here
  rw [trackIn, Array.getElem?_modify]
  split
  · rw [here]
    cases root with
    | values held => exact ⟨_, rfl, .inr ⟨held, [value], rfl, rfl⟩⟩
    | value _ | scope _ => exact ⟨_, rfl, .inl rfl⟩
  · exact ⟨root, here, .inl rfl⟩

/-- Dropping what was registered since. -/
theorem Extends.release (since : roots.Extends other) :
    roots.Extends (other.release roots.size) ∧ (other.release roots.size).size = roots.size := by
  have size : (other.release roots.size).size = roots.size := by
    have := since.size_le
    rw [Roots.release, Array.take_eq_extract, Array.size_extract]
    omega
  refine ⟨fun index root here => ?_, size⟩
  obtain ⟨grown, there, grows⟩ := since index root here
  have inside := (Array.getElem?_eq_some_iff.mp here).1
  refine ⟨grown, ?_, grows⟩
  have := since.size_le
  rw [Roots.release, Array.take_eq_extract, Array.getElem?_extract, if_pos (by omega), Nat.zero_add, there]

theorem registered_push (root : Root) :
    Roots.Registered (roots.push root) value ↔ roots.Registered value ∨ value ∈ root.registered := by
  simp only [Registered, Array.mem_push, or_and_right, exists_or, exists_eq_left]

theorem registered_track {tracked : Value} (registered : (roots.track tracked).Registered value) :
    roots.Registered value ∨ value = tracked := by
  rw [track] at registered
  split at registered
  · exact ((registered_push (.value tracked)).mp registered).imp_right List.mem_singleton.mp
  · exact .inl registered

theorem registered_trackIn {tracked : Value} (registered : (roots.trackIn index tracked).Registered value) :
    roots.Registered value ∨ value = tracked := by
  obtain ⟨root, mem, holds⟩ := registered
  obtain ⟨position, here⟩ := Array.mem_iff_getElem?.mp mem
  rw [trackIn, Array.getElem?_modify] at here
  split at here
  · obtain ⟨old, at_old, rfl⟩ := Option.map_eq_some_iff.mp here
    have old_mem : old ∈ roots := Array.mem_iff_getElem?.mpr ⟨position, at_old⟩
    cases old with
    | values held =>
        rcases List.mem_append.mp holds with holds | new
        · exact .inl ⟨_, old_mem, holds⟩
        · exact .inr (List.mem_singleton.mp new)
    | value _ | scope _ => exact .inl ⟨_, old_mem, holds⟩
  · exact .inl ⟨root, Array.mem_iff_getElem?.mpr ⟨position, here⟩, holds⟩

theorem registered_release {mark : Nat} (registered : (roots.release mark).Registered value) :
    roots.Registered value := by
  obtain ⟨root, mem, holds⟩ := registered
  refine ⟨root, ?_, holds⟩
  rw [release, Array.take_eq_extract, Array.mem_iff_getElem?] at mem
  obtain ⟨position, here⟩ := mem
  rw [Array.getElem?_extract] at here
  split at here
  · exact Array.mem_iff_getElem?.mpr ⟨0 + position, here⟩
  · simp at here

/-- A value that has an object is registered. -/
def Guards (roots : Roots) (value : Value) : Prop :=
  value.cell?.isSome → roots.Registered value

theorem guards_track (roots : Roots) (value : Value) : (roots.track value).Guards value := by
  intro object
  rw [track, if_pos object]
  exact (registered_push (.value value)).mpr (.inr (List.mem_singleton.mpr rfl))

theorem Extends.guards (since : roots.Extends other) (guards : roots.Guards value) : other.Guards value :=
  fun object => since.registered (guards object)

/-- A registration of values that are added one by one. -/
def Collects (roots : Roots) (index : Nat) : Prop :=
  ∃ held, roots[index]? = some (.values held)

theorem collects_push (roots : Roots) : Roots.Collects (roots.push (.values [])) roots.size :=
  ⟨[], by rw [Array.getElem?_push, if_pos rfl]⟩

theorem Extends.collects (since : roots.Extends other) (collects : roots.Collects index) :
    other.Collects index := by
  obtain ⟨held, here⟩ := collects
  obtain ⟨grown, there, rfl | ⟨old, more, same, rfl⟩⟩ := since index _ here
  · exact ⟨held, there⟩
  · exact ⟨_, there⟩

theorem registered_trackIn_self (collects : roots.Collects index) (value : Value) :
    (roots.trackIn index value).Registered value := by
  obtain ⟨held, here⟩ := collects
  refine ⟨.values (held ++ [value]), Array.mem_iff_getElem?.mpr ⟨index, ?_⟩, by simp [Root.registered]⟩
  rw [trackIn, Array.getElem?_modify, if_pos rfl, here]
  rfl

end Roots

end PocketScript
