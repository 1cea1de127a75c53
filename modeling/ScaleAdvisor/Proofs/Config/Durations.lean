import Mathlib.Data.List.TakeWhile
import Mathlib.Data.Nat.Digits.Defs
import ScaleAdvisor.Config.Duration

/-!
Which texts are durations. Two units end in the same letter and two begin with the same, and blanks
may stand at the ends of the text and of the numeral; still a text has one reading at most, and it
is accepted exactly if it has one whose number and whose milliseconds fit 64 bits.

* `Text.stripped_iff`: trimming leaves what has no blanks at its ends;
* `number?_eq_some_iff`: which numerals are read;
* `splitUnit?_of_clear`: the unit that is split off is the one behind the numeral;
* `parse_reads`: the grammar of durations.
-/

namespace ScaleAdvisor

namespace Text

variable {cs core : List Char}

/-- What is left of a text without the blanks at its ends. -/
structure Stripped (cs core : List Char) : Prop where
  blanks : ∃ front back, cs = front ++ core ++ back ∧ (∀ c ∈ front, isBlank c = true) ∧
    ∀ c ∈ back, isBlank c = true
  first : ∀ c ∈ core.head?, isBlank c = false
  last : ∀ c ∈ core.getLast?, isBlank c = false

/-- What comes first in a row from which blanks have been dropped is no blank. -/
theorem head?_dropWhile_blank (cs : List Char) :
    ∀ c ∈ (cs.dropWhile isBlank).head?, isBlank c = false := by
  intro c first
  have kept := List.head?_dropWhile_not isBlank cs
  rw [Option.mem_def.mp first] at kept
  simpa using kept

theorem dropWhile_blanks {front : List Char} (blank : ∀ c ∈ front, isBlank c = true)
    (first : ∀ c ∈ core.head?, isBlank c = false) : (front ++ core).dropWhile isBlank = core := by
  rw [List.dropWhile_append_of_pos blank]
  cases core with
  | nil => rfl
  | cons c core => rw [List.dropWhile_cons_of_neg (by simp [first c (by simp)])]

theorem stripped_trimChars (cs : List Char) : Stripped cs (trimChars cs) where
  blanks := by
    let rest := cs.dropWhile isBlank
    refine ⟨cs.takeWhile isBlank, (rest.reverse.takeWhile isBlank).reverse, ?_, ?_, ?_⟩
    · have back : trimChars cs ++ (rest.reverse.takeWhile isBlank).reverse = rest := by
        rw [trimChars, ← List.reverse_append, List.takeWhile_append_dropWhile, List.reverse_reverse]
      rw [List.append_assoc, back, List.takeWhile_append_dropWhile]
    · exact fun c hc => List.mem_takeWhile_imp hc
    · exact fun c hc => List.mem_takeWhile_imp (List.mem_reverse.mp hc)
  first := by
    intro c first
    -- What is trimmed at the end does not come first, unless nothing is left.
    have kept : trimChars cs <+: cs.dropWhile isBlank := by
      rw [trimChars, ← List.reverse_suffix, List.reverse_reverse]
      exact List.dropWhile_suffix isBlank
    obtain ⟨rest, kept⟩ := kept
    refine head?_dropWhile_blank cs c ?_
    rw [← kept, List.head?_append, Option.mem_def.mp first]
    rfl
  last := by
    intro c last
    rw [trimChars, List.getLast?_reverse] at last
    exact head?_dropWhile_blank _ c last

theorem Stripped.eq_trimChars (h : Stripped cs core) : trimChars cs = core := by
  obtain ⟨front, back, rfl, front_blank, back_blank⟩ := h.blanks
  cases core with
  | nil =>
    have nothing : (front ++ [] ++ back).dropWhile isBlank = [] := by
      rw [List.dropWhile_eq_nil_iff]
      intro c hc
      rw [List.append_nil] at hc
      exact (List.mem_append.mp hc).elim (front_blank c) (back_blank c)
    rw [trimChars, nothing]
    rfl
  | cons c core =>
    have kept : (front ++ (c :: core ++ back)).dropWhile isBlank = c :: core ++ back :=
      dropWhile_blanks front_blank (by simpa using h.first)
    have trimmed :
      (back.reverse ++ (c :: core).reverse).dropWhile isBlank = (c :: core).reverse := by
      refine dropWhile_blanks (fun d hd => back_blank d (List.mem_reverse.mp hd)) ?_
      rw [List.head?_reverse]
      exact h.last
    rw [trimChars, List.append_assoc, kept, List.reverse_append, trimmed, List.reverse_reverse]

theorem stripped_iff : Stripped cs core ↔ trimChars cs = core :=
  ⟨Stripped.eq_trimChars, fun h => h ▸ stripped_trimChars cs⟩

theorem stripEnd?_eq_some_iff {ending : List Char} :
    stripEnd? ending cs = some core ↔ cs = core ++ ending := by
  rw [stripEnd?]
  constructor
  · intro stripped
    split at stripped
    · rename_i ends
      obtain ⟨front, rfl⟩ := List.isSuffixOf_iff_suffix.mp ends
      simpa using stripped
    · simp at stripped
  · rintro rfl
    simp

theorem stripEnd?_eq_none_iff {ending : List Char} :
    stripEnd? ending cs = none ↔ ∀ core, cs ≠ core ++ ending := by
  rw [Option.eq_none_iff_forall_ne_some]
  exact forall_congr' fun core => not_congr stripEnd?_eq_some_iff

end Text

theorem twoTo_eq (n : Nat) : twoTo n = 2 ^ n := rfl

/-- The number that digits write to the base ten. -/
def Decimal.value (digits : List Char) : Nat :=
  Nat.ofDigits 10 (digits.map fun c => c.toNat - '0'.toNat).reverse

theorem Decimal.natOfDigits_eq (digits : List Char) : natOfDigits digits = value digits := by
  rw [natOfDigits, value, Nat.ofDigits_eq_foldr, List.foldr_reverse, List.foldl_map]
  congr 1
  funext n c
  rw [Nat.cast_id, Nat.add_comm]

namespace Duration

inductive TimeUnit where
  | millisecond
  | second
  | minute
  deriving DecidableEq, Repr

namespace TimeUnit

def suffix : TimeUnit → List Char
  | millisecond => ['m', 's']
  | second => ['s']
  | minute => ['m']

def millis : TimeUnit → Nat
  | millisecond => 1
  | second => 1000
  | minute => 60000

theorem eq_of_millis {u v : TimeUnit} (same : u.millis = v.millis) : u = v := by
  cases u <;> cases v <;> simp_all [millis]

end TimeUnit

/-- One digit or more. -/
structure Digits (cs : List Char) : Prop where
  nonempty : cs ≠ []
  digit : ∀ c ∈ cs, '0' ≤ c ∧ c ≤ '9'

/-- Digits, after a plus sign or without one, and the number that they write. -/
inductive Numeral : List Char → Nat → Prop where
  | plain {digits : List Char} (h : Digits digits) : Numeral digits (Decimal.value digits)
  | signed {digits : List Char} (h : Digits digits) : Numeral ('+' :: digits) (Decimal.value digits)

/-- A text taken as a numeral and a unit. -/
structure Reading where
  numeral : List Char
  unit : TimeUnit
  value : Nat
  deriving DecidableEq, Repr

/-- Without blanks at its ends the text is a part for the numeral and then the unit, and without
blanks at its ends that part is the numeral. -/
def Reading.Of (r : Reading) (text : String) : Prop :=
  ∃ part, Text.Stripped text.toList (part ++ r.unit.suffix) ∧ Text.Stripped part r.numeral ∧
    Numeral r.numeral r.value

variable {cs digits part : List Char} {n : Nat} {text : String} {r r' : Reading}

theorem Digits.not_plus (h : Digits ('+' :: cs)) : False := by
  have := h.digit '+' (by simp)
  revert this
  decide

theorem Numeral.value_unique {m : Nat} (h : Numeral cs n) (h' : Numeral cs m) : n = m := by
  cases h with
  | plain h =>
    cases h' with
    | plain => rfl
    | signed => exact h.not_plus.elim
  | signed =>
    cases h' with
    | plain h' => exact h'.not_plus.elim
    | signed => rfl

theorem Numeral.digit (h : Numeral cs n) {c : Char} (hc : c ∈ cs) :
    c = '+' ∨ '0' ≤ c ∧ c ≤ '9' := by
  cases h with
  | plain h => exact .inr (h.digit c hc)
  | signed h => exact (List.mem_cons.mp hc).imp_right (h.digit c)

/-- What a run of characters without a sign writes, if it fits 64 bits. -/
def unsigned? (digits : List Char) : Option Nat :=
  if digits.isEmpty || !digits.all (fun c => '0' ≤ c && c ≤ '9') then none
  else
    let n := Decimal.natOfDigits digits
    if n < twoTo 64 then some n else none

theorem number?_signed (digits : List Char) : number? ('+' :: digits) = unsigned? digits := rfl

theorem number?_plain (plain : cs.head? ≠ some '+') : number? cs = unsigned? cs := by
  rw [number?, unsigned?]
  rintro rest rfl
  simp at plain

theorem digits_iff :
    Digits digits ↔ (digits.isEmpty || !digits.all (fun c => '0' ≤ c && c ≤ '9')) = false := by
  simp only [Bool.or_eq_false_iff, Bool.not_eq_false', List.all_eq_true, Bool.and_eq_true,
    decide_eq_true_eq, List.isEmpty_eq_false_iff]
  exact ⟨fun h => ⟨h.nonempty, h.digit⟩, fun h => ⟨h.1, h.2⟩⟩

theorem unsigned?_eq_some_iff : unsigned? digits = some n ↔
    Digits digits ∧ n = Decimal.value digits ∧ n < 2 ^ 64 := by
  rw [digits_iff, ← Decimal.natOfDigits_eq, unsigned?, twoTo_eq]
  cases digits.isEmpty || !digits.all (fun c => '0' ≤ c && c ≤ '9') with
  | true => simp
  | false =>
    simp only [Bool.false_eq_true, if_false, true_and]
    split
    · rename_i small
      constructor
      · rintro ⟨rfl⟩
        exact ⟨rfl, small⟩
      · rintro ⟨rfl, -⟩
        rfl
    · rename_i large
      constructor
      · rintro ⟨⟩
      · rintro ⟨rfl, small⟩
        exact absurd small large

theorem number?_eq_some_iff : number? cs = some n ↔ Numeral cs n ∧ n < 2 ^ 64 := by
  by_cases plus : cs.head? = some '+'
  · obtain ⟨digits, rfl⟩ := List.head?_eq_some_iff.mp plus
    rw [number?_signed, unsigned?_eq_some_iff]
    constructor
    · rintro ⟨h, rfl, small⟩
      exact ⟨.signed h, small⟩
    · rintro ⟨written, small⟩
      cases written with
      | plain h => exact h.not_plus.elim
      | signed h => exact ⟨h, rfl, small⟩
  · rw [number?_plain plus, unsigned?_eq_some_iff]
    constructor
    · rintro ⟨h, rfl, small⟩
      exact ⟨.plain h, small⟩
    · rintro ⟨written, small⟩
      cases written with
      | plain h => exact ⟨h, rfl, small⟩
      | signed => simp at plus

/-- A letter in the part of the numeral would be one of the numeral. -/
theorem Reading.clear (stripped : Text.Stripped part r.numeral)
    (written : Numeral r.numeral r.value) : 'm' ∉ part := by
  intro inside
  obtain ⟨front, back, rfl, front_blank, back_blank⟩ := stripped.blanks
  have no_blank : Text.isBlank 'm' = false := by decide
  simp only [List.mem_append] at inside
  obtain (inside | inside) | inside := inside
  · simp [front_blank 'm' inside] at no_blank
  · have := written.digit inside
    revert this
    decide
  · simp [back_blank 'm' inside] at no_blank

/-- The unit that is split off is the one that follows the numeral, though units overlap. -/
theorem splitUnit?_of_clear (clear : 'm' ∉ part) (unit : TimeUnit) :
    splitUnit? (part ++ unit.suffix) = some (part, unit.millis) := by
  cases unit with
  | millisecond =>
    have found : Text.stripEnd? ['m', 's'] (part ++ ['m', 's']) = some part :=
      Text.stripEnd?_eq_some_iff.mpr rfl
    rw [TimeUnit.suffix, splitUnit?, found]
    rfl
  | second =>
    have longer : Text.stripEnd? ['m', 's'] (part ++ ['s']) = none := by
      rw [Text.stripEnd?_eq_none_iff]
      intro front ends
      rw [show front ++ ['m', 's'] = front ++ ['m'] ++ ['s'] by simp, List.append_left_inj] at ends
      simp [ends] at clear
    have found : Text.stripEnd? ['s'] (part ++ ['s']) = some part :=
      Text.stripEnd?_eq_some_iff.mpr rfl
    rw [TimeUnit.suffix, splitUnit?, longer, found]
    rfl
  | minute =>
    have other (ending : List Char) : Text.stripEnd? (ending ++ ['s']) (part ++ ['m']) = none := by
      rw [Text.stripEnd?_eq_none_iff]
      intro front ends
      rw [← List.append_assoc] at ends
      simpa using (List.append_inj_right' ends rfl)
    have found : Text.stripEnd? ['m'] (part ++ ['m']) = some part :=
      Text.stripEnd?_eq_some_iff.mpr rfl
    have longer := other ['m']
    have shorter := other []
    rw [List.singleton_append] at longer
    rw [List.nil_append] at shorter
    rw [TimeUnit.suffix, splitUnit?, longer, shorter, found]
    rfl

theorem exists_unit_of_splitUnit? {k : Nat} (split : splitUnit? cs = some (part, k)) :
    ∃ unit : TimeUnit, cs = part ++ unit.suffix ∧ k = unit.millis := by
  rw [splitUnit?] at split
  split at split
  · rename_i numeral found
    cases split
    exact ⟨.millisecond, Text.stripEnd?_eq_some_iff.mp found, rfl⟩
  · split at split
    · rename_i numeral found
      cases split
      exact ⟨.second, Text.stripEnd?_eq_some_iff.mp found, rfl⟩
    · obtain ⟨numeral, found, same⟩ := Option.map_eq_some_iff.mp split
      cases same
      exact ⟨.minute, Text.stripEnd?_eq_some_iff.mp found, rfl⟩

/-- What becomes of a text without blanks at its ends. -/
theorem parseTrimmed_eq_ok_iff {core : List Char} {ms : Nat} : parseTrimmed core = .ok ms ↔
    ∃ part k n, splitUnit? core = some (part, k) ∧ number? (Text.trimChars part) = some n ∧ 1 ≤ n ∧
      n * k < 2 ^ 64 ∧ ms = n * k := by
  rw [parseTrimmed, twoTo_eq]
  constructor
  · intro parsed
    split at parsed
    · cases parsed
    · rename_i part k split
      split at parsed
      · cases parsed
      · cases parsed
      · rename_i n positive read
        split at parsed
        · rename_i fits
          cases parsed
          exact ⟨part, k, n, split, read, Nat.one_le_iff_ne_zero.mpr positive, fits, rfl⟩
        · cases parsed
  · rintro ⟨part, k, n, split, read, positive, fits, rfl⟩
    rw [split]
    simp only
    rw [read]
    obtain ⟨m, rfl⟩ := Nat.exists_eq_add_of_le' positive
    simp only
    rw [if_pos fits]

/-- A reading is what the parser takes a text apart into. -/
theorem Reading.Of.split (h : r.Of text) : ∃ part,
    splitUnit? (Text.trimChars text.toList) = some (part, r.unit.millis) ∧
      Text.trimChars part = r.numeral ∧ Numeral r.numeral r.value := by
  obtain ⟨part, core, stripped, written⟩ := h
  refine ⟨part, ?_, stripped.eq_trimChars, written⟩
  rw [core.eq_trimChars]
  exact splitUnit?_of_clear (Reading.clear stripped written) r.unit

theorem Reading.Of.unique (h : r.Of text) (h' : r'.Of text) : r = r' := by
  obtain ⟨part, split, numeral, written⟩ := h.split
  obtain ⟨part', split', numeral', written'⟩ := h'.split
  rw [split] at split'
  simp only [Option.some.injEq, Prod.mk.injEq] at split'
  obtain ⟨rfl, millis⟩ := split'
  have same : r.numeral = r'.numeral := numeral.symm.trans numeral'
  have unit : r.unit = r'.unit := TimeUnit.eq_of_millis millis
  have value : r.value = r'.value := written.value_unique (same ▸ written')
  cases r
  cases r'
  simp_all

/-- A text is a duration exactly if it can be read as one whose number and whose milliseconds fit 64
bits, and then it is that many milliseconds. There is no second reading. -/
theorem parse_reads (text : String) :
    (∀ ms, parse text = .ok ms ↔ ∃ r : Reading, r.Of text ∧ 1 ≤ r.value ∧ r.value < 2 ^ 64 ∧
      r.value * r.unit.millis < 2 ^ 64 ∧ ms = r.value * r.unit.millis) ∧
    ∀ r r' : Reading, r.Of text → r'.Of text → r = r' := by
  refine ⟨fun ms => ?_, fun r r' => Reading.Of.unique⟩
  rw [parse, parseTrimmed_eq_ok_iff]
  constructor
  · rintro ⟨part, k, n, split, read, positive, fits, rfl⟩
    obtain ⟨unit, core, rfl⟩ := exists_unit_of_splitUnit? split
    obtain ⟨written, small⟩ := number?_eq_some_iff.mp read
    refine ⟨⟨Text.trimChars part, unit, n⟩,
      ⟨part, ?_, Text.stripped_trimChars part, written⟩, positive, small, fits, rfl⟩
    rw [← core]
    exact Text.stripped_trimChars _
  · rintro ⟨r, h, positive, small, fits, rfl⟩
    obtain ⟨part, split, numeral, written⟩ := h.split
    refine ⟨part, r.unit.millis, r.value, split, ?_, positive, fits, rfl⟩
    rw [numeral]
    exact number?_eq_some_iff.mpr ⟨written, small⟩

/-- Blanks of several kinds, a sign and zeros that change nothing. -/
def spacedOut : String := "\u2003+060\u00a0s\n"

theorem parse_reads_spacedOut :
    let r : Reading := ⟨['+', '0', '6', '0'], .second, 60⟩
    r.Of spacedOut ∧ parse spacedOut = .ok 60000 ∧ ∀ r', r'.Of spacedOut → r' = r := by
  intro r
  have digits : Digits ['0', '6', '0'] := digits_iff.mpr (by decide)
  have written : Numeral ['+', '0', '6', '0'] 60 := .signed digits
  have reading : r.Of spacedOut :=
    ⟨['+', '0', '6', '0', '\u00a0'], Text.stripped_iff.mpr (by decide +kernel),
      Text.stripped_iff.mpr (by decide +kernel), written⟩
  obtain ⟨accepted, one⟩ := parse_reads spacedOut
  refine ⟨reading, (accepted 60000).mpr ?_, fun r' h => one r' r h reading⟩
  exact ⟨r, reading, by decide, by decide, by decide +kernel, by decide +kernel⟩

-- The last whole second whose milliseconds fit, and the one after it.
example : parse "18446744073709551s" = .ok 18446744073709551000 ∧
    parse "18446744073709552s" = .error (.tooLarge "18446744073709552s") := by
  decide +kernel

end Duration

end ScaleAdvisor
