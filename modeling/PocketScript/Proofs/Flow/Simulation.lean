import PocketScript.Proofs.Flow.Progress

/-! # The lines run as the structure says

Whatever a structured program is meant to do, running its lines does. The blocks
that are open while code runs decide where a jump goes: leaving a loop makes
everything up to its end be skipped, and its next round goes back to its header.
-/

namespace PocketScript

open Machine (Leads)

variable {κ : Type} [Console κ] {scene : Scene κ} {limit levels address : Nat} {machine : Machine κ}
  {course course' : Course} {branch next : Branch} {branches : List Branch} {others : List (List UInt8)}

namespace Scope

/-- There is a loop to leave if there is one to go on with. -/
theorem breakLoop_found (branches : List Branch) :
    (breakLoop branches).2 = (continueLoop branches).2.isSome := by
  induction branches with
  | nil => rfl
  | cons branch outer ih =>
      cases outer with
      | nil =>
          by_cases loops : branch.action = .loop
          · simp [breakLoop, continueLoop, loops]
          · simp [breakLoop, continueLoop, loops]
      | cons next outer =>
          rw [breakLoop, continueLoop]
          by_cases loops : branch.action = .loop
          · simp [loops]
          · simpa [loops] using ih

theorem breakLoop_of_loop (loops : branch.action = .loop) (branches : List Branch) :
    breakLoop (branch :: branches) = ({ branch with action := .ignoreHard } :: branches, true) := by
  rw [breakLoop, if_pos loops]

/-- Leaving a loop skips the rest of every block in it. -/
theorem breakLoop_of_ne (other : branch.action ≠ .loop) (branches : List Branch) :
    (breakLoop (branch :: branches)).1 = { branch with action := .ignoreHard } :: (breakLoop branches).1 := by
  rw [breakLoop, if_neg other]

theorem continueLoop_of_ne (other : branch.action ≠ .loop) (next : Branch) (branches : List Branch) :
    continueLoop (branch :: next :: branches) = continueLoop (next :: branches) := by
  rw [continueLoop, if_neg other]

/-- The innermost of the blocks that a jump leaves is skipped. -/
theorem breakLoop_head (branch : Branch) (branches : List Branch) :
    ∃ outer, (breakLoop (branch :: branches)).1 = { branch with action := .ignoreHard } :: outer := by
  by_cases loops : branch.action = .loop
  · exact ⟨branches, by rw [breakLoop_of_loop loops]⟩
  · exact ⟨_, breakLoop_of_ne loops branches⟩

end Scope

/-- The blocks are inside a loop, with its header in the program. -/
def Scene.Loops (scene : Scene κ) (branches : List Branch) : Prop :=
  ∃ header, (Scope.continueLoop branches).2 = some header ∧
    scene.store.byte header = (Builtin.control .loop).byte

theorem Scene.Loops.deeper (loops : scene.Loops (next :: branches)) (other : branch.action ≠ .loop) :
    scene.Loops (branch :: next :: branches) := by
  rw [Scene.Loops, Scope.continueLoop_of_ne other]
  exact loops

/-- Where code leads to: behind it, to the skipped rest of the innermost loop, or
    to the header of that loop. -/
def Scene.Reaches (scene : Scene κ) (branches : List Branch) (others : List (List UInt8)) (course : Course) :
    Ending → Machine κ → Nat → Prop
  | .normal => scene.Faces course branches others
  | .left => scene.Faces course (Scope.breakLoop branches).1 others
  | .again => fun after header => (Scope.continueLoop branches).2 = some header ∧ after.Ready ∧
      scene.Stands after course (Scope.continueLoop branches).1

/-- Where a choice leads to: to the arm it picks, with the arms behind it, or past
    all arms. -/
def Scene.Takes (scene : Scene κ) (course : Course) (branches : List Branch) (others : List (List UInt8)) :
    Option (Code .block × Code .arms) → Machine κ → Nat → Prop
  | none => scene.Faces course branches others
  | some (chosen, behind) =>
    scene.Faces course (⟨.run, 0⟩ :: branches) (chosen.lines ++ (behind.lines ++ others))

namespace Scene.Faces

/-- An arm that was taken is left, and the arms behind it are skipped. -/
theorem leaves_arm {arms : Code .arms}
    (faces : scene.Faces course (branch :: next :: branches) (arms.lines ++ others) machine address)
    (runs : branch.action = .run) (apart : arms.Apart scene.functions) (tested : arms.Tested course.env)
    (limit levels : Nat) :
    Leads limit levels (2 * arms.lines.length) machine address (scene.Faces course (next :: branches) others) := by
  have running : branch.action.isIgnored = false := by
    rw [runs]
    rfl
  cases arms with
  | close =>
      simp only [Code.lines, List.cons_append, List.nil_append] at faces
      have is_line := Code.isLine_alone (.control .close)
      refine faces.leads_line is_line ?_
      refine faces.stands.turns_close faces.ready running faces.has.1 ?_ (stopsAt_of_endsLine _ faces.ends)
      rw [runs, if_neg (by simp)]
      rfl
  | otherwise body =>
      simp only [Code.lines, List.cons_append, List.append_assoc, List.nil_append] at faces
      have is_line := Code.isLine_alone (.control .otherwise)
      have left : Leads limit levels 2 machine address _ := faces.leads_line is_line
        (faces.stands.turns_otherwise faces.ready running faces.has.1 faces.ends)
      have body_skipped := left.trans (Nat.le_refl _) fun _ _ faces => body.skipped scene limit levels rfl faces
      exact body_skipped.trans (by simp [Code.lines]; omega) fun _ _ faces => faces.closes limit levels rfl
  | otherwiseWhen condition body arms =>
      simp only [Code.lines, List.cons_append, List.append_assoc] at faces
      obtain ⟨value, means⟩ := Option.isSome_iff_exists.mp tested
      have is_line := Code.isLine_builtin (.control .otherwiseWhen) condition.plain
      have left : Leads limit levels 2 machine address _ := faces.leads_line is_line
        (faces.stands.turns_otherwiseWhen faces.ready running faces.has faces.ends
          apart.1 means)
      have body_skipped := left.trans (Nat.le_refl _) fun _ _ faces => body.skipped scene limit levels rfl faces
      exact body_skipped.trans (by simp [Code.lines]; omega) fun _ _ faces => arms.skipped scene limit levels rfl faces

/-- An arm is found among those whose turn it is, or there is none to take. -/
theorem takes_arm {arms : Code .arms} {picked : Option (Code .block × Code .arms)}
    (picks : Picks course.env arms picked) (apart : arms.Apart scene.functions) (limit levels : Nat)
    (faces : scene.Faces course (⟨.ignoreSoft, 0⟩ :: next :: branches) (arms.lines ++ others) machine address) :
    Leads limit levels (2 * arms.lines.length) machine address
      (scene.Takes course (next :: branches) others picked) := by
  induction picks generalizing machine address with
  | none => exact faces.closes limit levels rfl
  | otherwise body =>
      simp only [Code.lines, List.cons_append, List.append_assoc, List.nil_append] at faces
      have is_line := Code.isLine_alone (.control .otherwise)
      have taken : Leads limit levels 2 machine address _ := faces.leads_line is_line
        (faces.stands.turns_otherwise_taken rfl (faces.lineEnd is_line) faces.has.1)
      exact taken.mono (by simp [Code.lines]) fun _ _ faces => faces
  | @holds condition value body arms means holds =>
      simp only [Code.lines, List.cons_append, List.append_assoc] at faces
      have is_line := Code.isLine_builtin (.control .otherwiseWhen) condition.plain
      have turns : scene.Turns limit levels machine address _ _ _ :=
        faces.stands.turns_otherwiseWhen_tried faces.ready rfl
        faces.has faces.ends apart.1 means
      rw [holds] at turns
      exact (faces.leads_line is_line turns).mono (by simp [Code.lines]) fun _ _ faces => faces
  | @fails condition value arms picked body means fails rest ih =>
      simp only [Code.lines, List.cons_append, List.append_assoc] at faces
      have is_line := Code.isLine_builtin (.control .otherwiseWhen) condition.plain
      have turns : scene.Turns limit levels machine address _ _ _ :=
        faces.stands.turns_otherwiseWhen_tried faces.ready rfl
        faces.has faces.ends apart.1 means
      rw [fails] at turns
      have passed := faces.leads_line is_line turns
      have body_skipped := passed.trans (Nat.le_refl _) fun _ _ faces => body.skipped scene limit levels rfl faces
      exact body_skipped.trans (by simp [Code.lines]; omega) fun _ _ faces => ih apart.2.2 faces

/-- A choice takes the arm that it picks. -/
theorem takes_choice {condition : Formula} {body : Code .block} {arms : Code .arms}
    {picked : Option (Code .block × Code .arms)}
    (picks : Picks course.env (.otherwiseWhen condition body arms) picked) (running : branch.action.isIgnored = false)
    (apart : (Code.otherwiseWhen condition body arms).Apart scene.functions) (limit levels : Nat)
    (faces : scene.Faces course (branch :: branches)
      (((Builtin.control .whenTrue).byte :: condition.text) :: (body.lines ++ (arms.lines ++ others)))
      machine address) :
    Leads limit levels (2 * (Code.otherwiseWhen condition body arms).lines.length) machine address
      (scene.Takes course (branch :: branches) others picked) := by
  have is_line := Code.isLine_builtin (.control .whenTrue) condition.plain
  have turns : ∀ {value : Float32}, condition.meaning course.env = some value →
      scene.Turns limit levels machine address course
        (⟨if isTrue value then .run else .ignoreSoft, 0⟩ :: branch :: branches) _ :=
    fun means => faces.stands.turns_whenTrue faces.ready running faces.has faces.ends apart.1 means
  cases picks with
  | holds _ _ means holds =>
      have turns := turns means
      rw [holds] at turns
      exact (faces.leads_line is_line turns).mono (by simp [Code.lines]) fun _ _ faces => faces
  | fails _ means fails rest =>
      have turns := turns means
      rw [fails] at turns
      have opened := faces.leads_line is_line turns
      have body_skipped := opened.trans (Nat.le_refl _) fun _ _ faces => body.skipped scene limit levels rfl faces
      exact body_skipped.trans (by simp [Code.lines]; omega) fun _ _ faces =>
        faces.takes_arm rest apart.2.2 limit levels

/-- The rest of a block that is left is skipped. -/
theorem skips_left {rest : Code .block} (limit levels : Nat)
    (faces : scene.Faces course (Scope.breakLoop (branch :: branches)).1 (rest.lines ++ others) machine address) :
    Leads limit levels (2 * rest.lines.length) machine address
      (scene.Faces course (Scope.breakLoop (branch :: branches)).1 others) := by
  obtain ⟨outer, left⟩ := Scope.breakLoop_head branch branches
  rw [left] at faces ⊢
  exact rest.skipped scene limit levels rfl faces

theorem leaves_loop {rest : Code .block} (running : branch.action.isIgnored = false)
    (loops : scene.Loops (branch :: branches)) (limit levels : Nat)
    (faces : scene.Faces course (branch :: branches) ([(Builtin.control .leaveLoop).byte] :: (rest.lines ++ others))
      machine address) :
    Leads limit levels (2 + 2 * rest.lines.length) machine address
      (scene.Faces course (Scope.breakLoop (branch :: branches)).1 others) := by
  obtain ⟨header, found, -⟩ := loops
  have inside : (Scope.breakLoop (branch :: branches)).2 = true := by
    rw [Scope.breakLoop_found, found]
    rfl
  have is_line := Code.isLine_alone (.control .leaveLoop)
  have turns : scene.Turns limit levels machine address _ _ _ :=
    faces.stands.turns_leaveLoop faces.ready running faces.has.1
    faces.ends inside
  exact (faces.leads_line is_line turns).trans (Nat.le_refl _) fun _ _ faces => faces.skips_left limit levels

/-- A jump to the header of a loop, which stops what is read of the line. -/
theorem jumps {header : Nat} {branches' : List Branch} {line : List UInt8}
    (faces : scene.Faces course branches (line :: others) machine address) (is_line : Code.IsLine line)
    (turns : scene.Turns limit levels machine address course branches' header) :
    Leads limit levels 1 machine address fun after address' =>
      address' = header ∧ after.Ready ∧ scene.Stands after course branches' := by
  have first := is_line.first faces.has
  rw [← faces.stands.store] at first
  refine (turns.leads faces.ready first).mono (Nat.le_refl _) ?_
  rintro after address' ⟨stands, ready, same⟩
  exact ⟨same, ready, stands⟩

theorem next_round {rest : List (List UInt8)} (running : branch.action.isIgnored = false)
    (loops : scene.Loops (branch :: branches)) (limit levels : Nat)
    (faces : scene.Faces course (branch :: branches) ([(Builtin.control .nextRound).byte] :: rest) machine address) :
    Leads limit levels 1 machine address (scene.Reaches (branch :: branches) others course .again) := by
  obtain ⟨header, found, here⟩ := loops
  have stops : StopsAt Inner.statementCeiling (scene.store.byte header) := by
    rw [here]
    exact Builtin.stopsAt _ _
  have turns : scene.Turns limit levels machine address _ _ _ :=
    faces.stands.turns_nextRound faces.ready running faces.has.1
    stops found
  refine (faces.jumps (Code.isLine_alone (.control .nextRound)) turns).mono (Nat.le_refl _) ?_
  rintro after _ ⟨rfl, ready, stands⟩
  exact ⟨found, ready, stands⟩

/-- The end of a round goes back to the header. -/
theorem ends_round {header : Nat} (here : scene.store.byte header = (Builtin.control .loop).byte) (limit levels : Nat)
    (faces : scene.Faces course (⟨.loop, header⟩ :: next :: branches) (Code.closeLine :: others) machine address) :
    Leads limit levels 1 machine address fun after address' =>
      address' = header ∧ after.Ready ∧ scene.Stands after course (next :: branches) := by
  have stops : StopsAt Inner.statementCeiling (scene.store.byte header) := by
    rw [here]
    exact Builtin.stopsAt _ _
  have turns : scene.Turns limit levels machine address _ _ header :=
    faces.stands.turns_close faces.ready rfl
    faces.has.1 (by rw [if_pos rfl]) stops
  exact faces.jumps (Code.isLine_alone (.control .close)) turns

end Scene.Faces

theorem Picks.apart {env : Environment} {arms behind : Code .arms} {chosen : Code .block} {functions : List String}
    (picks : Picks env arms (some (chosen, behind))) (apart : arms.Apart functions) :
    chosen.Apart functions ∧ behind.Apart functions := by
  generalize picked : some (chosen, behind) = taken at picks
  induction picks with
  | none => simp at picked
  | otherwise body =>
      obtain ⟨rfl, rfl⟩ := Prod.mk.inj (Option.some.inj picked)
      exact ⟨apart, trivial⟩
  | holds body arms means holds =>
      obtain ⟨rfl, rfl⟩ := Prod.mk.inj (Option.some.inj picked)
      exact apart.2
  | fails body means fails rest ih => exact ih apart.2.2 picked

/-- Running the lines of code leads to where the code is meant to lead. How many
    steps that takes does not depend on where the lines stand. -/
theorem Exec.leads (scene : Scene κ) {code : Code .block} {ending : Ending} (exec : Exec code course ending course')
    (apart : code.Apart scene.functions) :
    ∃ count, ∀ (limit levels : Nat) {machine : Machine κ} {address : Nat} {branch : Branch} {branches : List Branch}
      {others : List (List UInt8)}, branch.action.isIgnored = false →
        (ending ≠ .normal → scene.Loops (branch :: branches)) →
        scene.Faces course (branch :: branches) (code.lines ++ others) machine address →
        Leads limit levels count machine address (scene.Reaches (branch :: branches) others course' ending) := by
  induction exec with
  | done course =>
      refine ⟨0, ?_⟩
      intro limit levels machine address branch branches others running loops faces
      exact .here faces
  | @assign name operator? formula rest course last ending value stored means stores exec ih =>
      obtain ⟨apart, apart', apart_rest⟩ := apart
      obtain ⟨count, ih⟩ := ih apart_rest
      refine ⟨2 + count, ?_⟩
      intro limit levels machine address branch branches others running loops faces
      have turns : scene.Turns limit levels machine address _ _ _ :=
        faces.stands.turns_assign faces.ready running faces.has
        faces.ends apart apart' means stores
      have stored := faces.leads_line (Code.isLine_assign name operator? formula) turns
      exact stored.trans (Nat.le_refl _) fun _ _ faces => ih limit levels running loops faces
  | @print formula rest course last ending value means exec ih =>
      obtain ⟨apart, apart_rest⟩ := apart
      obtain ⟨count, ih⟩ := ih apart_rest
      refine ⟨2 + count, ?_⟩
      intro limit levels machine address branch branches others running loops faces
      have turns : scene.Turns limit levels machine address _ _ _ :=
        faces.stands.turns_print faces.ready running faces.has
        faces.ends apart means
      have printed := faces.leads_line (Code.isLine_builtin (.console .print) formula.plain) turns
      exact printed.trans (Nat.le_refl _) fun _ _ faces => ih limit levels running loops faces
  | @pass condition body arms rest course last ending picks exec ih =>
      obtain ⟨apart_condition, apart_body, apart_arms, apart_rest⟩ := apart
      obtain ⟨count, ih⟩ := ih apart_rest
      refine ⟨2 * (Code.otherwiseWhen condition body arms).lines.length + count, ?_⟩
      intro limit levels machine address branch branches others running loops faces
      simp only [Code.lines, List.cons_append, List.append_assoc] at faces
      have passed := faces.takes_choice picks running ⟨apart_condition, apart_body, apart_arms⟩ limit levels
      exact passed.trans (Nat.le_refl _) fun _ _ faces => ih limit levels running loops faces
  | @choose condition body chosen arms behind rest course middle last ending picks exec tested exec' ih ih' =>
      obtain ⟨apart_condition, apart_body, apart_arms, apart_rest⟩ := apart
      obtain ⟨apart_chosen, apart_behind⟩ := picks.apart ⟨apart_condition, apart_body, apart_arms⟩
      obtain ⟨count, ih⟩ := ih apart_chosen
      obtain ⟨count', ih'⟩ := ih' apart_rest
      refine ⟨2 * (Code.otherwiseWhen condition body arms).lines.length + count + 2 * behind.lines.length +
        count', ?_⟩
      intro limit levels machine address branch branches others running loops faces
      simp only [Code.lines, List.cons_append, List.append_assoc] at faces
      have taken := faces.takes_choice picks running ⟨apart_condition, apart_body, apart_arms⟩ limit levels
      have ran := taken.trans (Nat.le_refl _) fun _ _ faces => ih limit levels rfl (by simp) faces
      have left := ran.trans (Nat.le_refl _) fun _ _ faces =>
        Scene.Faces.leaves_arm faces rfl apart_behind tested limit levels
      exact left.trans (Nat.le_refl _) fun _ _ faces => ih' limit levels running loops faces
  | @jump condition body chosen arms behind rest course last ending picks exec jumps ih =>
      obtain ⟨apart_condition, apart_body, apart_arms, apart_rest⟩ := apart
      obtain ⟨apart_chosen, apart_behind⟩ := picks.apart ⟨apart_condition, apart_body, apart_arms⟩
      obtain ⟨count, ih⟩ := ih apart_chosen
      refine ⟨2 * (Code.otherwiseWhen condition body arms).lines.length + count +
        (2 * behind.lines.length + 2 * rest.lines.length), ?_⟩
      intro limit levels machine address branch branches others running loops faces
      simp only [Code.lines, List.cons_append, List.append_assoc] at faces
      have taken := faces.takes_choice picks running ⟨apart_condition, apart_body, apart_arms⟩ limit levels
      have ran := taken.trans (Nat.le_refl _) fun _ _ faces =>
        ih limit levels rfl (fun jumps => (loops jumps).deeper (by simp)) faces
      refine ran.trans (Nat.le_refl (_ + (2 * behind.lines.length + 2 * rest.lines.length))) ?_
      intro after address' reached
      cases ending with
      | normal => exact absurd rfl jumps
      | left =>
          -- The arms behind the one that was left are skipped, and so is the rest of the block.
          have faces : scene.Faces last (Scope.breakLoop (⟨.run, 0⟩ :: branch :: branches)).1
            (behind.lines ++ (rest.lines ++ others)) after address' := reached
          obtain ⟨outer, left⟩ := Scope.breakLoop_head branch branches
          rw [Scope.breakLoop_of_ne (by simp), left] at faces
          have skipped := behind.skipped scene limit levels rfl faces
          refine skipped.trans (Nat.le_refl _) fun _ _ faces => ?_
          rw [← left] at faces
          exact faces.skips_left limit levels
      | again =>
          have same : Scope.continueLoop (⟨.run, 0⟩ :: branch :: branches) = _ :=
            Scope.continueLoop_of_ne (by simp) branch branches
          refine .here ?_
          rw [Scene.Reaches, ← same]
          exact reached
  | @loopEnds condition body rest course last ending value means ends exec ih =>
      obtain ⟨apart_condition, apart_body, apart_rest⟩ := apart
      obtain ⟨count, ih⟩ := ih apart_rest
      refine ⟨2 + 2 * body.lines.length + 2 + count, ?_⟩
      intro limit levels machine address branch branches others running loops faces
      simp only [Code.lines, List.cons_append, List.append_assoc] at faces
      have turns : scene.Turns limit levels machine address _ _ _ :=
        faces.stands.turns_loop faces.ready running faces.has
        faces.ends apart_condition means
      rw [ends] at turns
      have opened := faces.leads_line (Code.isLine_builtin (.control .loop) condition.plain) turns
      have body_skipped := opened.trans (Nat.le_refl _) fun _ _ faces => body.skipped scene limit levels rfl faces
      have closed := body_skipped.trans (Nat.le_refl _) fun _ _ faces => faces.closes limit levels rfl
      exact closed.trans (Nat.le_refl _) fun _ _ faces => ih limit levels running loops faces
  | @loopLeft condition body rest course middle last ending value means goes exec exec' ih ih' =>
      obtain ⟨apart_condition, apart_body, apart_rest⟩ := apart
      obtain ⟨count, ih⟩ := ih apart_body
      obtain ⟨count', ih'⟩ := ih' apart_rest
      refine ⟨2 + count + 2 + count', ?_⟩
      intro limit levels machine address branch branches others running loops faces
      simp only [Code.lines, List.cons_append, List.append_assoc] at faces
      have inside : scene.Loops (⟨.loop, address⟩ :: branch :: branches) := ⟨address, rfl, faces.has.1⟩
      have turns : scene.Turns limit levels machine address _ _ _ :=
        faces.stands.turns_loop faces.ready running faces.has
        faces.ends apart_condition means
      rw [goes] at turns
      have opened := faces.leads_line (Code.isLine_builtin (.control .loop) condition.plain) turns
      have left := opened.trans (Nat.le_refl _) fun _ _ faces => ih limit levels rfl (fun _ => inside) faces
      have closed := left.trans (Nat.le_refl _) fun after address' reached =>
        have faces : scene.Faces middle (⟨.ignoreHard, address⟩ :: branch :: branches)
          (Code.closeLine :: (rest.lines ++ others)) after address' := reached
        faces.closes limit levels rfl
      exact closed.trans (Nat.le_refl _) fun _ _ faces => ih' limit levels running loops faces
  | @loopGoes condition body rest course middle last round ending value means goes exec jumps exec' ih ih' =>
      have apart_loop := apart
      obtain ⟨apart_condition, apart_body, apart_rest⟩ := apart
      obtain ⟨count, ih⟩ := ih apart_body
      obtain ⟨count', ih'⟩ := ih' apart_loop
      refine ⟨2 + count + (1 + count'), ?_⟩
      intro limit levels machine address branch branches others running loops faces
      have header := faces.lines
      simp only [Code.lines, List.cons_append, List.append_assoc] at faces
      have here := faces.has.1
      have turns : scene.Turns limit levels machine address _ _ _ :=
        faces.stands.turns_loop faces.ready running faces.has
        faces.ends apart_condition means
      rw [goes] at turns
      have opened := faces.leads_line (Code.isLine_builtin (.control .loop) condition.plain) turns
      have ran := opened.trans (Nat.le_refl _)
        fun _ _ faces => ih limit levels rfl (fun _ => ⟨address, rfl, here⟩) faces
      refine ran.trans (Nat.le_refl _) fun after address' reached => ?_
      cases round with
      | left => exact absurd rfl jumps
      | normal =>
          refine (Scene.Faces.ends_round here limit levels reached).trans (Nat.le_refl _) ?_
          rintro after _ ⟨rfl, ready, stands⟩
          exact ih' limit levels running loops ⟨stands, ready, header⟩
      | again =>
          obtain ⟨same, ready, stands⟩ := reached
          obtain rfl : address = address' := Option.some.inj same
          exact (ih' limit levels running loops ⟨stands, ready, header⟩).mono (by omega) fun _ _ reached => reached
  | leaveLoop rest course =>
      refine ⟨2 + 2 * rest.lines.length, ?_⟩
      intro limit levels machine address branch branches others running loops faces
      exact faces.leaves_loop running (loops (by simp)) limit levels
  | nextRound rest course =>
      refine ⟨1, ?_⟩
      intro limit levels machine address branch branches others running loops faces
      exact faces.next_round running (loops (by simp)) limit levels
  | @define name parameters body rest course last ending exec ih =>
      obtain ⟨mem, apart_rest⟩ := apart
      obtain ⟨count, ih⟩ := ih apart_rest
      refine ⟨2 + 2 * body.lines.length + 2 + count, ?_⟩
      intro limit levels machine address branch branches others running loops faces
      simp only [Code.lines, List.cons_append, List.append_assoc] at faces
      have turns : scene.Turns limit levels machine address _ _ _ :=
        faces.stands.turns_define faces.ready running faces.has
        faces.ends mem
      have is_line := Code.isLine_builtin (.control .define) (Code.plain_headerText name parameters)
      have opened := faces.leads_line is_line turns
      have body_skipped := opened.trans (Nat.le_refl _) fun _ _ faces => body.skipped scene limit levels rfl faces
      have closed := body_skipped.trans (Nat.le_refl _) fun _ _ faces => faces.closes limit levels rfl
      exact closed.trans (Nat.le_refl _) fun _ _ faces => ih limit levels running loops faces

end PocketScript
