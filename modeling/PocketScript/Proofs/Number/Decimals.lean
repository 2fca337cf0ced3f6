import PocketScript.Proofs.Number.Beginning
import PocketScript.Text.Utf8

/-! # Written decimals

What a count of ten-thousandths is written as, without zeros at the end, spells the number
that the count stands for. So it is read as a binary32 number nearest to that.
-/

namespace PocketScript

open Binary32 (Nearest)

variable {text digits digits' : List Char}

/-- The bytes of ASCII characters. -/
def asciiBytes (text : List Char) : List UInt8 :=
  text.map fun character => UInt8.ofNat character.toNat

@[simp]
theorem asciiBytes_append : asciiBytes (digits ++ digits') = asciiBytes digits ++ asciiBytes digits' :=
  List.map_append

@[simp]
theorem length_asciiBytes (text : List Char) : (asciiBytes text).length = text.length :=
  List.length_map _

theorem toList_loop (bytes : ByteArray) (index : Nat) (taken : List UInt8) :
    ByteArray.toList.loop bytes index taken = taken.reverse ++ bytes.data.toList.drop index := by
  fun_induction ByteArray.toList.loop bytes index taken with
  | case1 index taken inside ih =>
      have here : bytes.data.toList.drop index = bytes.get! index :: bytes.data.toList.drop (index + 1) := by
        have size : index < bytes.data.size := inside
        rw [List.drop_eq_getElem_cons (by simpa using inside), Array.getElem_toList]
        exact congrArg (· :: _) (getElem!_pos bytes.data index size).symm
      rw [ih, here, List.reverse_cons, List.append_assoc, List.singleton_append]
  | case2 index taken outside =>
      rw [List.drop_eq_nil_of_le (by simpa using Nat.le_of_not_lt outside), List.append_nil]

/-- ASCII characters take a byte each. -/
theorem toBytes_ofList (ascii : ∀ character ∈ text, character.toNat < 128) :
    Text.toBytes (String.ofList text) = asciiBytes text := by
  have single : text.flatMap String.utf8EncodeChar = asciiBytes text := by
    induction text with
    | nil => rfl
    | cons character rest ih =>
        obtain ⟨small, ascii⟩ := List.forall_mem_cons.mp ascii
        have one : character.utf8Size = 1 :=
          Char.utf8Size_eq_one_iff.mpr (UInt32.le_iff_toNat_le.mpr (Nat.le_of_lt_succ small))
        rw [List.flatMap_cons, ih ascii, String.utf8EncodeChar_eq_singleton one]
        rfl
  rw [Text.toBytes, String.toUTF8, String.toByteArray_ofList, List.utf8Encode.eq_1, single, ByteArray.toList,
    toList_loop, List.data_toByteArray, List.reverse_nil, List.nil_append, List.drop_zero]

theorem toNat_of_isDigit {digit : Char} (is_digit : digit.isDigit = true) :
    0x30 ≤ digit.toNat ∧ digit.toNat ≤ 0x39 := by
  simp only [Char.isDigit, Bool.and_eq_true, decide_eq_true_eq] at is_digit
  exact ⟨UInt32.le_iff_toNat_le.mp is_digit.1, UInt32.le_iff_toNat_le.mp is_digit.2⟩

theorem toNat_asciiByte {character : Char} (ascii : character.toNat < 128) :
    (UInt8.ofNat character.toNat).toNat = character.toNat :=
  UInt8.toNat_ofNat_of_lt' (Nat.lt_trans ascii (by decide))

/-- Every character is a digit. -/
def AreDigits (digits : List Char) : Prop :=
  ∀ digit ∈ digits, digit.isDigit = true

theorem areDigits_decimalDigits (count : Nat) : AreDigits (decimalDigits count) :=
  fun _ => isDigit_of_mem_decimalDigits

theorem AreDigits.ascii (all : AreDigits digits) : ∀ digit ∈ digits, digit.toNat < 128 := by
  intro digit mem
  have most := (toNat_of_isDigit (all digit mem)).2
  omega

theorem AreDigits.bytes (all : AreDigits digits) : ∀ byte ∈ asciiBytes digits, Symbol.isDigit byte = true := by
  intro byte mem
  obtain ⟨digit, inside, rfl⟩ := List.mem_map.mp mem
  rw [Numeral.isDigit_iff, toNat_asciiByte (all.ascii digit inside)]
  exact toNat_of_isDigit (all digit inside)

theorem ofDigits_decimalDigits (count : Nat) : Numeral.ofDigits (asciiBytes (decimalDigits count)) = count := by
  have same : ∀ (digits : List Char) (start : Nat), AreDigits digits →
      (asciiBytes digits).foldl (fun value digit => value * 10 + (digit.toNat - 0x30)) start =
        Nat.ofDigitChars 10 digits start := by
    intro digits
    induction digits with
    | nil => exact fun _ _ => rfl
    | cons digit digits ih =>
        intro start all
        have value : (UInt8.ofNat digit.toNat).toNat = digit.toNat :=
          toNat_asciiByte (all.ascii digit List.mem_cons_self)
        change (asciiBytes digits).foldl _ (start * 10 + ((UInt8.ofNat digit.toNat).toNat - 0x30)) =
          Nat.ofDigitChars 10 digits (10 * start + (digit.toNat - '0'.toNat))
        rw [value, Nat.mul_comm]
        exact ih _ fun digit mem => all digit (List.mem_cons_of_mem _ mem)
  exact (same _ 0 (areDigits_decimalDigits count)).trans Nat.ofDigitChars_ten_toDigits

theorem ofDigits_zeros (count : Nat) : Numeral.ofDigits (asciiBytes (List.replicate count '0')) = 0 := by
  induction count with
  | zero => rfl
  | succ count ih =>
      have first : Numeral.ofDigits (asciiBytes (List.replicate (count + 1) '0')) =
          0 * 10 ^ (asciiBytes (List.replicate count '0')).length +
            Numeral.ofDigits (asciiBytes (List.replicate count '0')) :=
        Numeral.ofDigits_cons 0x30 _
      rw [first, ih, Nat.zero_mul]

/-- Zeros in front count nothing. -/
theorem ofDigits_padZeros (width : Nat) (digits : List Char) :
    Numeral.ofDigits (asciiBytes (padZeros width digits)) = Numeral.ofDigits (asciiBytes digits) := by
  rw [padZeros, asciiBytes_append, Numeral.ofDigits_append, ofDigits_zeros, Nat.zero_mul, Nat.zero_add]

/-- Digits are what is left without the zeros at their end, and those zeros. -/
theorem exists_dropTrailingZeros (digits : List Char) :
    ∃ count, digits = dropTrailingZeros digits ++ List.replicate count '0' := by
  have zeros : digits.reverse.takeWhile (· == '0') =
      List.replicate (digits.reverse.takeWhile (· == '0')).length '0' :=
    List.eq_replicate_of_mem fun digit mem => by simpa using List.mem_takeWhile_imp mem
  refine ⟨(digits.reverse.takeWhile (· == '0')).length, ?_⟩
  have whole := congrArg List.reverse (List.takeWhile_append_dropWhile (p := (· == '0')) (l := digits.reverse))
  rw [List.reverse_append, List.reverse_reverse, zeros, List.reverse_replicate] at whole
  exact whole.symm

/-- Zeros at the end of decimals count nothing. -/
theorem decimals_dropTrailingZeros (digits : List Char) :
    (Numeral.ofDigits (asciiBytes (dropTrailingZeros digits)) / 10 ^ (dropTrailingZeros digits).length : ℚ) =
      Numeral.ofDigits (asciiBytes digits) / 10 ^ digits.length := by
  obtain ⟨count, split⟩ := exists_dropTrailingZeros digits
  generalize dropTrailingZeros digits = rest at split
  subst split
  rw [asciiBytes_append, Numeral.ofDigits_append, ofDigits_zeros, length_asciiBytes, List.length_append,
    List.length_replicate, pow_add]
  push_cast
  field_simp
  ring

/-- The decimals of a count, without zeros at the end. -/
def decimalsOf (count : Nat) : List Char :=
  dropTrailingZeros (padZeros 4 (decimalDigits (count % 10000)))

/-- The parts of a written count of ten-thousandths. -/
def plainSpelling (negative : Bool) (count : Nat) : Spelling :=
  { sign? := if negative then some 0x2d else none
    integer := asciiBytes (decimalDigits (count / 10000))
    fraction? := if (decimalsOf count).isEmpty then none else some (asciiBytes (decimalsOf count))
    power? := none }

theorem areDigits_decimalsOf (count : Nat) : AreDigits (decimalsOf count) := by
  intro digit mem
  have kept : digit ∈ padZeros 4 (decimalDigits (count % 10000)) := by
    obtain ⟨zeros, split⟩ := exists_dropTrailingZeros (padZeros 4 (decimalDigits (count % 10000)))
    rw [split]
    exact List.mem_append_left _ mem
  exact (padZeros_digits (Nat.mod_lt count (by decide))).2 digit kept

theorem fraction_plainSpelling (negative : Bool) (count : Nat) :
    (plainSpelling negative count).fraction = asciiBytes (decimalsOf count) := by
  cases same : decimalsOf count with
  | nil => simp [Spelling.fraction, plainSpelling, same, asciiBytes]
  | cons digit digits => simp [Spelling.fraction, plainSpelling, same]

theorem proper_plainSpelling (negative : Bool) (count : Nat) : (plainSpelling negative count).Proper where
  sign := by
    cases negative with
    | false => exact nofun
    | true => exact fun sign same => Option.some.inj same ▸ rfl
  integer := (areDigits_decimalDigits _).bytes
  fraction := by
    intro digits same
    have taken := fraction_plainSpelling negative count
    rw [Spelling.fraction, Option.mem_def.mp same, Option.getD_some] at taken
    rw [taken]
    exact (areDigits_decimalsOf count).bytes
  nonempty := .inl (by simp [plainSpelling, asciiBytes, decimalDigits, Nat.toDigits_ne_nil])
  power := nofun

theorem text_plainSpelling (negative : Bool) (count : Nat) :
    (plainSpelling negative count).text = asciiBytes (withSign negative (writeTrimmed count)) := by
  have unsigned : asciiBytes (writeTrimmed count) = asciiBytes (decimalDigits (count / 10000)) ++
      Spelling.fractionText (plainSpelling negative count).fraction? [] := by
    rw [writeTrimmed, plainSpelling]
    change asciiBytes (_ ++ if (decimalsOf count).isEmpty then [] else '.' :: decimalsOf count) = _
    split
    · simp [Spelling.fractionText, asciiBytes]
    · simp [Spelling.fractionText, asciiBytes]
  cases negative with
  | false => exact unsigned.symm
  | true => exact congrArg (0x2d :: ·) unsigned.symm

theorem magnitude_plainSpelling (negative : Bool) (count : Nat) :
    (plainSpelling negative count).magnitude = count / 10000 := by
  have padded : (padZeros 4 (decimalDigits (count % 10000))).length = 4 :=
    (padZeros_digits (Nat.mod_lt count (by decide))).1
  have whole : ((count / 10000 : Nat) : ℚ) * 10000 + (count % 10000 : Nat) = count := by
    exact_mod_cast Nat.div_add_mod' count 10000
  have decimals : (Numeral.ofDigits (asciiBytes (decimalsOf count)) / 10 ^ (decimalsOf count).length : ℚ) =
      (count % 10000 : Nat) / 10 ^ 4 := by
    rw [decimalsOf, decimals_dropTrailingZeros, padded, ofDigits_padZeros, ofDigits_decimalDigits]
  rw [Spelling.magnitude, fraction_plainSpelling, length_asciiBytes, decimals]
  simp only [plainSpelling, Spelling.exponent, Option.elim_none, zpow_zero, mul_one, ofDigits_decimalDigits]
  linarith

theorem ascii_writeTrimmed (negative : Bool) (count : Nat) :
    ∀ character ∈ withSign negative (writeTrimmed count), character.toNat < 128 := by
  have decimals : ∀ character ∈ (if (decimalsOf count).isEmpty then [] else '.' :: decimalsOf count),
      character.toNat < 128 := by
    split
    · exact nofun
    · exact List.forall_mem_cons.mpr ⟨by decide, (areDigits_decimalsOf count).ascii⟩
  have unsigned : ∀ character ∈ writeTrimmed count, character.toNat < 128 :=
    List.forall_mem_append.mpr ⟨(areDigits_decimalDigits _).ascii, decimals⟩
  cases negative with
  | false => exact unsigned
  | true => exact List.forall_mem_cons.mpr ⟨by decide, unsigned⟩

/-- A written count is read as a number nearest to it. -/
theorem readNumber_writeTrimmed (negative : Bool) (count : Nat) :
    ∃ bits, Nearest (count / 10000) bits ∧
      readNumber (Text.toBytes (String.ofList (withSign negative (writeTrimmed count)))) =
        Binary32.ofMagnitude negative bits := by
  have proper := proper_plainSpelling negative count
  obtain ⟨bits, nearest, rounded⟩ := proper.rounds_numeral
  have sign : (plainSpelling negative count).negative = negative := by
    cases negative <;> rfl
  rw [magnitude_plainSpelling] at nearest
  rw [sign] at rounded
  refine ⟨bits, nearest, ?_⟩
  rw [toBytes_ofList (ascii_writeTrimmed negative count), ← text_plainSpelling, readNumber, ofText?_eq,
    proper.dropWhile_isBlank, scan_text proper]
  exact rounded

end PocketScript
