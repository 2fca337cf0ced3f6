import PocketScript.Console.Script
import PocketScript.Proofs.Machine.Targets

/-! # Random whole numbers

A random whole number between two others is picked by counting them in 32 bits. As long
as the count fits, an empty range is refused and any other range gives one of its
numbers, whatever is drawn. A count that does not fit comes out with the wrong sign:
then a wide range is refused and an empty one is not.
-/

namespace PocketScript

namespace RandomSource

/-- The most that a draw gives. -/
def greatestDraw : Nat := 32767

theorem drawWithin_le (limit : Nat) (source : RandomSource) :
    (drawWithin limit source).1 ≤ greatestDraw := by
  induction limit generalizing source with
  | zero => exact Nat.zero_le _
  | succ limit ih =>
      simp only [drawWithin]
      split
      · exact ih _
      · have bits := (word source.key source.used).toNat_lt
        rw [Nat.shiftRight_eq_div_pow, greatestDraw]
        omega

theorem draw_le (source : RandomSource) : source.draw.1 ≤ greatestDraw :=
  drawWithin_le period source

/-- A word can be drawn. -/
def Accepts (key : Vector UInt32 8) (position : Nat) : Prop :=
  (word key position).toNat.testBit 16 = false

theorem word_add_period (key : Vector UInt32 8) (position turns : Nat) :
    word key (position + turns * period) = word key position := by
  have blocks : turns * period = 16 * (turns * 2 ^ 64) := by
    rw [period]
    change turns * 2 ^ 68 = _
    omega
  have place : (position + turns * period) % 16 = position % 16 := by
    rw [blocks, Nat.add_mul_mod_self_left]
  have number : UInt64.ofNat ((position + turns * period) / 16) = UInt64.ofNat (position / 16) := by
    rw [blocks, Nat.add_mul_div_left _ _ (by decide)]
    refine UInt64.toNat_inj.mp ?_
    rw [UInt64.toNat_ofNat', UInt64.toNat_ofNat', Nat.add_mul_mod_self_right]
  simp only [word, place, number]

/-- Words that cannot be drawn are skipped up to the first that can. -/
theorem drawWithin_eq {source : RandomSource} {limit skipped : Nat} (few : skipped < limit)
    (rejected : ∀ earlier < skipped, ¬ Accepts source.key (source.used + earlier))
    (accepted : Accepts source.key (source.used + skipped)) :
    drawWithin limit source =
      ((word source.key (source.used + skipped)).toNat >>> 17, { source with used := source.used + skipped + 1 }) := by
  induction limit generalizing source skipped with
  | zero => cases few
  | succ limit ih =>
      rw [drawWithin]
      cases skipped with
      | zero =>
          have here : (word source.key source.used).toNat.testBit 16 = false := accepted
          rw [here, if_neg Bool.false_ne_true]
          rfl
      | succ skipped =>
          have here : (word source.key source.used).toNat.testBit 16 = true :=
            Bool.not_eq_false _ ▸ rejected 0 (Nat.succ_pos skipped)
          have place (index : Nat) : source.used + 1 + index = source.used + (index + 1) := by omega
          let next : RandomSource := { source with used := source.used + 1 }
          have rest : ∀ earlier < skipped, ¬ Accepts next.key (next.used + earlier) := fun earlier less =>
            place earlier ▸ rejected (earlier + 1) (Nat.succ_lt_succ less)
          have later : Accepts next.key (next.used + skipped) := place skipped ▸ accepted
          rw [if_pos here, ih (Nat.lt_of_succ_lt_succ few) rest later, place]

/-- If any word of the keystream can be drawn, the next one that can is drawn, however far
    ahead it is. -/
theorem draw_eq {source : RandomSource} (some_word : ∃ position, Accepts source.key position) :
    ∃ skipped, Accepts source.key (source.used + skipped) ∧
      (∀ earlier < skipped, ¬ Accepts source.key (source.used + earlier)) ∧
      source.draw = ((word source.key (source.used + skipped)).toNat >>> 17,
        { source with used := source.used + skipped + 1 }) := by
  classical
  obtain ⟨position, accepted⟩ := some_word
  have repeats {place turns : Nat} : Accepts source.key (place + turns * period) ↔ Accepts source.key place := by
    rw [Accepts, Accepts, word_add_period]
  have ahead : ∃ skipped, Accepts source.key (source.used + skipped) := by
    have within : source.used ≤ source.used * period := Nat.le_mul_of_pos_right _ (Nat.two_pow_pos 68)
    refine ⟨position + source.used * period - source.used, ?_⟩
    rw [Nat.add_sub_cancel' (by omega)]
    exact repeats.mpr accepted
  refine ⟨Nat.find ahead, Nat.find_spec ahead, fun _ => Nat.find_min ahead, ?_⟩
  refine drawWithin_eq ?_ (fun _ => Nat.find_min ahead) (Nat.find_spec ahead)
  -- What stands a whole period ahead or further stands one period earlier, too.
  by_contra far
  have turn : source.used + (Nat.find ahead - period) + 1 * period = source.used + Nat.find ahead := by omega
  have positive : 0 < period := Nat.two_pow_pos 68
  have back : Accepts source.key (source.used + Nat.find ahead) := Nat.find_spec ahead
  rw [← turn, repeats] at back
  exact Nat.find_min ahead (by omega) back

end RandomSource

namespace Machine

variable {κ : Type} {lowest highest : Int32} {draw : Nat}

/-- How many whole numbers there are from `lowest` to `highest`; zero or less if there
    are none. -/
def choices (lowest highest : Int32) : Int :=
  highest.toInt - lowest.toInt + 1

/-- The number of choices is one of the integers of 32 bits. -/
def Countable (lowest highest : Int32) : Prop :=
  -2 ^ 31 ≤ choices lowest highest ∧ choices lowest highest < 2 ^ 31

/-- The number that a draw picks. -/
def picked (lowest highest : Int32) (draw : Nat) : Int32 :=
  lowest + Int32.ofNat draw % (highest - lowest + 1)

/-- The choices as they are counted. -/
theorem toInt_span (lowest highest : Int32) :
    (highest - lowest + 1).toInt = (choices lowest highest).bmod (2 ^ 32) := by
  rw [Int32.toInt_add, Int32.toInt_sub, Int.bmod_add_bmod]
  rfl

theorem toInt_span_of_countable (countable : Countable lowest highest) :
    (highest - lowest + 1).toInt = choices lowest highest := by
  obtain ⟨least, most⟩ := countable
  rw [toInt_span]
  exact Int.bmod_eq_of_le (by omega) (by omega)

/-- The count is above zero for a range that is not empty, unless it does not fit. -/
theorem span_le_zero_iff (lowest highest : Int32) :
    highest - lowest + 1 ≤ 0 ↔ (Countable lowest highest ↔ highest.toInt < lowest.toInt) := by
  have least := lowest.le_toInt
  have least' := highest.le_toInt
  have most := lowest.toInt_lt
  have most' := highest.toInt_lt
  rw [Int32.le_iff_toInt_le, toInt_span]
  change (choices lowest highest).bmod (2 ^ 32) ≤ 0 ↔ _
  rw [Int.bmod_def, Countable, choices]
  split <;> omega

/-- A draw picks a number from `lowest` to `highest`, and nothing overflows on the way. -/
theorem toInt_picked (countable : Countable lowest highest) (some_choice : lowest.toInt ≤ highest.toInt)
    (drawn : draw ≤ RandomSource.greatestDraw) :
    (picked lowest highest draw).toInt = lowest.toInt + draw % choices lowest highest := by
  have positive : 0 < choices lowest highest := by
    rw [choices]
    omega
  have short : draw < 2 ^ 31 := by
    rw [RandomSource.greatestDraw] at drawn
    omega
  have rest : (Int32.ofNat draw % (highest - lowest + 1)).toInt = draw % choices lowest highest := by
    rw [Int32.toInt_mod, Int32.toInt_ofNat_of_lt short, toInt_span_of_countable countable]
    exact Int.tmod_eq_emod_of_nonneg (Int.natCast_nonneg draw)
  have least := lowest.le_toInt
  have most := highest.toInt_lt
  have above := Int.emod_nonneg draw positive.ne'
  have below := Int.emod_lt_of_pos draw positive
  have highest_eq : lowest.toInt + choices lowest highest = highest.toInt + 1 := by
    rw [choices]
    omega
  rw [picked, Int32.toInt_add, rest]
  exact Int.bmod_eq_of_le (by omega) (by omega)

theorem picked_between (countable : Countable lowest highest) (some_choice : lowest.toInt ≤ highest.toInt)
    (drawn : draw ≤ RandomSource.greatestDraw) :
    lowest.toInt ≤ (picked lowest highest draw).toInt ∧ (picked lowest highest draw).toInt ≤ highest.toInt := by
  have positive : 0 < choices lowest highest := by
    rw [choices]
    omega
  have above := Int.emod_nonneg draw positive.ne'
  have below := Int.emod_lt_of_pos draw positive
  rw [toInt_picked countable some_choice drawn]
  rw [choices] at *
  omega

/-- What `randInt:` does: it refuses a count that is not above zero, and otherwise draws
    once. -/
theorem applyMath_randomInteger (x y : Float32) (start : Address) (machine : Machine κ) :
    applyMath .randomInteger [.number x, .number y] start machine =
      if truncate y - truncate x + 1 ≤ 0 then Eval.raise .badValue start machine
      else .ok (.number (picked (truncate x) (truncate y) machine.draws.draw.1).toFloat32)
        { machine with draws := machine.draws.draw.2 } := by
  simp only [applyMath, randomBetween, numberOf, List.getD_cons_zero, List.getD_cons_succ, pure_bind]
  by_cases refused : truncate y - truncate x + 1 ≤ 0
  · simp only [if_pos refused]
    rfl
  · simp only [if_neg refused]
    rfl

/-- The choices between two numbers, truncated to 32 bits, if they can be counted: having
    none is a bad value and nothing else is, and every draw picks one of the choices. If
    they cannot be counted, having some is the bad value. -/
theorem randomInteger_in_range (x y : Float32) (start : Address) (machine : Machine κ) :
    let lowest := truncate x
    let highest := truncate y
    let run := applyMath .randomInteger [.number x, .number y] start machine
    (Countable lowest highest →
      (run = Eval.raise .badValue start machine ↔ highest.toInt < lowest.toInt) ∧
      (lowest.toInt ≤ highest.toInt →
        machine.draws.draw.1 ≤ RandomSource.greatestDraw ∧
        run = .ok (.number (picked lowest highest machine.draws.draw.1).toFloat32)
          { machine with draws := machine.draws.draw.2 } ∧
        ∀ draw ≤ RandomSource.greatestDraw,
          lowest.toInt ≤ (picked lowest highest draw).toInt ∧
          (picked lowest highest draw).toInt ≤ highest.toInt ∧
          (picked lowest highest draw).toInt = lowest.toInt + draw % choices lowest highest)) ∧
    (¬ Countable lowest highest →
      (run = Eval.raise .badValue start machine ↔ lowest.toInt ≤ highest.toInt)) := by
  intro lowest highest run
  have ran : run = _ := applyMath_randomInteger x y start machine
  have refused_iff : run = Eval.raise .badValue start machine ↔ highest - lowest + 1 ≤ 0 := by
    constructor
    · intro refused
      by_contra accepted
      rw [ran, if_neg accepted] at refused
      cases refused
    · intro refused
      rw [ran, if_pos refused]
  rw [refused_iff, span_le_zero_iff]
  refine ⟨fun countable => ⟨by simp [countable], fun some_choice => ?_⟩, fun uncountable => ?_⟩
  · have accepted : ¬ highest - lowest + 1 ≤ 0 := by
      rw [span_le_zero_iff]
      exact fun same => absurd (same.mp countable) (by omega)
    refine ⟨machine.draws.draw_le, by rw [ran, if_neg accepted], fun draw drawn => ?_⟩
    obtain ⟨least, most⟩ := picked_between countable some_choice drawn
    exact ⟨least, most, toInt_picked countable some_choice drawn⟩
  · simp [uncountable]

/-- A machine without a program. -/
def idleMachine : Machine Script :=
  Machine.start (Store.ofImage #[]) (Script.ofAnswers []) Configuration.standard

/-- Three, four and five can be counted. -/
theorem randomInteger_in_range_threeToFive :
    Countable (truncate 3.0) (truncate 5.0) ∧ (truncate 3.0).toInt ≤ (truncate 5.0).toInt ∧
      ∃ draw after, applyMath .randomInteger [.number 3.0, .number 5.0] 20 idleMachine =
          .ok (.number (picked (truncate 3.0) (truncate 5.0) draw).toFloat32) after ∧
        3 ≤ (picked (truncate 3.0) (truncate 5.0) draw).toInt ∧
        (picked (truncate 3.0) (truncate 5.0) draw).toInt ≤ 5 := by
  have three : (truncate 3.0).toInt = 3 := by decide +kernel
  have five : (truncate 5.0).toInt = 5 := by decide +kernel
  have countable : Countable (truncate 3.0) (truncate 5.0) := by
    rw [Countable, choices, three, five]
    omega
  have some_choice : (truncate 3.0).toInt ≤ (truncate 5.0).toInt := by omega
  obtain ⟨drawn, ran, between⟩ :=
    ((randomInteger_in_range 3.0 5.0 20 idleMachine).1 countable).2 some_choice
  obtain ⟨least, most, -⟩ := between _ drawn
  exact ⟨countable, some_choice, _, _, ran, three ▸ least, five ▸ most⟩

/-- A program that asks for a number from two thousand million to its opposite:

        A=randInt:2000000000,-2000000000
        print:7
-/
def slotOfEmptyRange : List UInt8 :=
  [1, 77, 65, 73, 78] ++ List.replicate 12 0 ++ [28, 0] ++
    ([65, 61, 164] ++ (50 :: List.replicate 9 48) ++ [44, 45] ++ (50 :: List.replicate 9 48) ++
      [10, 186, 55, 0])

/-- There is no such number, but the program is not stopped. -/
theorem runSlot_emptyRange :
    (truncate (-2000000000.0)).toInt < (truncate 2000000000.0).toInt ∧
    let run := (Machine.start (Store.ofImage slotOfEmptyRange.toArray) (Script.ofAnswers [])
      { Configuration.standard with seed? := some 1 }).runSlot 20 0
    run.1 = .finished ∧ run.2.console.printed = ["7"] := by
  rw [ofImage_toArray slotOfEmptyRange (by decide +kernel)]
  decide +kernel

end Machine

end PocketScript
