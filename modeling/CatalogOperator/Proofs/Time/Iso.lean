import CatalogOperator.Time.Iso
import Mathlib.Algebra.Group.Nat.Defs
import Mathlib.Data.List.Basic

/-!
# `CatalogOperator.Proofs.Time.Iso`: reading a written moment

A moment is written with fixed-width numbers, so the reader finds every part where the writer put it:
the date is the first ten characters, one character separates it from the clock reading, and the
first sign behind starts the offset. A clock reading holds digits, colons and a point only, so no
sign of its own can be mistaken for that one.

* `Moment.Real`: the moments a calendar and a clock can show.
* `Moment.ofIso?_text`: a real moment is read back from its written form.
-/

set_option autoImplicit false

namespace CatalogOperator

namespace Iso

open Moment (padded clockText)

/-! ### Numbers of a fixed width -/

/-- A padded number that fits is as long as it should be. -/
theorem length_padded {width n : Nat} (hw : 0 < width) (h : n < 10 ^ width) :
    (padded width n).toList.length = width := by
  have hlen : (toString n).toList.length ≤ width := by
    rw [Nat.toString_eq_ofList_toDigits, String.toList_ofList]
    exact (Nat.length_toDigits_le_iff (by omega) hw).mpr h
  simp only [padded, String.toList_ofList, List.length_append, List.length_replicate]
  omega

/-- A padded number consists of digits. -/
theorem isDigit_of_mem_padded {width n : Nat} {c : Char} (h : c ∈ (padded width n).toList) :
    c.isDigit := by
  simp only [padded, String.toList_ofList, List.mem_append, List.mem_replicate] at h
  obtain ⟨-, rfl⟩ | h := h
  · decide
  · rw [Nat.toString_eq_ofList_toDigits, String.toList_ofList] at h
    exact Nat.isDigit_of_mem_toDigits (by omega) (by omega) h

/-- A padded number is read as the number that it is. -/
theorem number?_padded {width n : Nat} (hw : 0 < width) (h : n < 10 ^ width) :
    number? (padded width n).toList width = some n := by
  have hdigits : (padded width n).toList.all Char.isDigit :=
    List.all_eq_true.mpr fun c hc => isDigit_of_mem_padded hc
  have hvalue : Nat.ofDigitChars 10 (padded width n).toList 0 = n := by
    simp [padded, Nat.ofDigitChars_append, Nat.ofDigitChars_replicate_zero]
  rw [number?, if_pos ⟨length_padded hw h, hdigits⟩]
  rw [Nat.ofDigitChars_eq_foldl] at hvalue
  simpa [Nat.mul_comm] using hvalue

/-- A number of a fixed width in front of a text is the one that is read there. -/
theorem number?_take_padded {width n : Nat} (hw : 0 < width) (h : n < 10 ^ width)
    (rest : List Char) :
    number? (((padded width n).toList ++ rest).take width) width = some n := by
  rw [List.take_left' (length_padded hw h), number?_padded hw h]

/-- What follows a padded number is left once its digits are dropped. -/
theorem drop_padded {width n : Nat} (hw : 0 < width) (h : n < 10 ^ width) (rest : List Char) :
    ((padded width n).toList ++ rest).drop width = rest :=
  List.drop_left' (length_padded hw h)

/-! ### Clock readings -/

/-- The end of a text has no more parts of a clock. -/
@[simp] theorem clockParts?_nil (colons : Bool) (count : Nat) :
    clockParts? colons count [] = some ([], 0) := by
  cases count <;> rfl

/-- A part of a clock with two digits is read, and then the rest. -/
theorem clockParts?_part {n : Nat} (h : n < 100) (count : Nat) (rest : List Char) :
    clockParts? true (count + 1) (':' :: ((padded 2 n).toList ++ rest)) =
      (clockParts? true count rest).map fun p => (n :: p.1, p.2) := by
  have hpart := number?_take_padded (by omega) (show n < 10 ^ 2 from h) rest
  have hrest := drop_padded (by omega) (show n < 10 ^ 2 from h) rest
  cases hp : clockParts? true count rest <;> simp [clockParts?, hpart, hrest, hp]

/-- The last part of a clock is read when nothing follows it. -/
theorem clockParts?_last {n : Nat} (h : n < 100) (count : Nat) :
    clockParts? true (count + 1) (':' :: (padded 2 n).toList) = some ([n], 0) := by
  simpa using clockParts?_part h count []

/-- A fraction with six digits is read as microseconds. -/
theorem fraction?_padded {n : Nat} (h : n < Moment.second) :
    fraction? (padded 6 n).toList = some n := by
  have h6 : n < 10 ^ 6 := h
  have hne : (padded 6 n).toList ≠ [] := by
    rw [ne_eq, ← List.length_eq_zero_iff, length_padded (by omega) h6]
    omega
  have hdigits : (padded 6 n).toList.all Char.isDigit :=
    List.all_eq_true.mpr fun c hc => isDigit_of_mem_padded hc
  rw [fraction?, if_neg (by simpa using hne), if_pos hdigits,
    number?_take_padded (by omega) h6]

/-- A fraction is what may follow the parts of a clock. -/
theorem clockParts?_fraction {n : Nat} (h : n < Moment.second) (count : Nat) :
    clockParts? true count ('.' :: (padded 6 n).toList) = some ([], n) := by
  cases count <;> simp [clockParts?, fraction?_padded h]

/-- A clock is read by its hour, and then part by part. -/
theorem clock?_hour {n : Nat} (h : n < 100) (rest : List Char) :
    clock? ((padded 2 n).toList ++ ':' :: rest) =
      (clockParts? true 2 (':' :: rest)).map fun p =>
        (n, p.1[0]?.getD 0, p.1[1]?.getD 0, p.2) := by
  have hpart := number?_take_padded (by omega) (show n < 10 ^ 2 from h) (':' :: rest)
  have hrest := drop_padded (by omega) (show n < 10 ^ 2 from h) (':' :: rest)
  cases hp : clockParts? true 2 (':' :: rest) <;> simp [clock?, hpart, hrest, hp]

/-- A written clock reading below a day is read back in its parts. -/
theorem clock?_clockText {micros : Nat} (h : micros < Moment.day) (withSeconds : Bool) :
    clock? (clockText micros withSeconds).toList =
      some (micros / Moment.second / 3600, micros / Moment.second / 60 % 60,
        micros / Moment.second % 60, micros % Moment.second) := by
  have hhour : micros / Moment.second / 3600 < 100 := by
    simp only [Moment.day, Moment.second] at *
    omega
  have hminute : micros / Moment.second / 60 % 60 < 100 := by omega
  have hsecond : micros / Moment.second % 60 < 100 := by omega
  have hfraction : micros % Moment.second < Moment.second := Nat.mod_lt _ (by decide)
  by_cases hf : micros % Moment.second = 0
  · by_cases hs : withSeconds || micros / Moment.second % 60 != 0
    · simp [clockText, hf, hs, clock?_hour hhour, clockParts?_part hminute,
        clockParts?_last hsecond]
    · obtain ⟨rfl, hzero⟩ : withSeconds = false ∧ micros / Moment.second % 60 = 0 := by
        simpa using hs
      simp [clockText, hf, hzero, clock?_hour hhour, clockParts?_last hminute]
  · simp [clockText, hf, clock?_hour hhour, clockParts?_part hminute,
      clockParts?_part hsecond, clockParts?_fraction hfraction]

/-- The parts of a clock reading add up to it. -/
theorem sum_parts (micros : Nat) :
    ((micros / Moment.second / 3600 * 60 + micros / Moment.second / 60 % 60) * 60 +
      micros / Moment.second % 60) * Moment.second + micros % Moment.second = micros := by
  simp only [Moment.second]
  omega

/-- A time of day is put together again from its parts. -/
theorem timeOfDay?_parts {micros : Nat} (h : micros < Moment.day) :
    timeOfDay? (micros / Moment.second / 3600, micros / Moment.second / 60 % 60,
      micros / Moment.second % 60, micros % Moment.second) = some micros := by
  have hhour : micros / Moment.second / 3600 < 24 := by
    simp only [Moment.day, Moment.second] at *
    omega
  rw [timeOfDay?, if_pos ⟨hhour, by omega, by omega⟩, sum_parts]

/-- An offset is a clock with a sign, if it is less than a day. -/
theorem offset?_of_clock? {cs : List Char} {hour minute seconds micros total : Nat}
    (hclock : clock? cs = some (hour, minute, seconds, micros))
    (htotal : ((hour * 60 + minute) * 60 + seconds) * Moment.second + micros = total)
    (h : total < Moment.day) (negative : Bool) :
    offset? negative cs = some (if negative then -(total : Int) else total) := by
  subst htotal
  unfold offset?
  rw [hclock]
  -- The last step is only checked fast if it cannot unfold the product with a million.
  obtain ⟨second, hsecond⟩ : ∃ n, Moment.second = n := ⟨_, rfl⟩
  rw [hsecond] at h ⊢
  exact if_pos h

/-- A written offset is read as it is. -/
theorem offset?_clockText {o : Int} (h : o.natAbs < Moment.day) :
    offset? (decide (o < 0)) (clockText o.natAbs false).toList = some o := by
  rw [offset?_of_clock? (clock?_clockText h false) (sum_parts o.natAbs) h]
  by_cases ho : o < 0
  · rw [decide_eq_true ho, if_pos rfl, Int.ofNat_natAbs_of_nonpos (by omega), Int.neg_neg]
  · rw [decide_eq_false ho, if_neg Bool.false_ne_true, Int.natAbs_of_nonneg (by omega)]

/-! ### The clock and its offset -/

/-- A clock reading holds no sign and no letter. -/
theorem no_sign_of_mem_clockText {micros : Nat} {withSeconds : Bool} {c : Char}
    (h : c ∈ (clockText micros withSeconds).toList) : c ≠ '-' ∧ c ≠ '+' ∧ c ≠ 'Z' := by
  have hpadded {width n : Nat} (hc : c ∈ (padded width n).toList) : c.isDigit :=
    isDigit_of_mem_padded hc
  have hshape : c.isDigit ∨ c = ':' ∨ c = '.' := by
    dsimp only [clockText] at h
    split_ifs at h <;>
      simp only [String.toList_append, List.mem_append, String.reduceToList, List.mem_singleton,
        List.not_mem_nil, or_false] at h <;>
      grind
  obtain hdigit | rfl | rfl := hshape
  · refine ⟨?_, ?_, ?_⟩ <;> rintro rfl <;> exact absurd hdigit (by decide)
  · decide
  · decide

/-- A written time of day is read as it is. -/
theorem time?_clockText {micros : Nat} (h : micros < Moment.day) :
    time? (clockText micros true).toList = some (micros, none) := by
  have hfind : (clockText micros true).toList.find? (fun c => c == '-' || c == '+' || c == 'Z') =
      none := by
    rw [List.find?_eq_none]
    intro c hc
    simpa [and_assoc] using no_sign_of_mem_clockText hc
  simp [time?, hfind, clock?_clockText h, timeOfDay?_parts h]

/-- So is one with an offset. -/
theorem time?_clockText_offset {micros : Nat} (h : micros < Moment.day) {o : Int}
    (ho : o.natAbs < Moment.day) :
    time? ((clockText micros true).toList ++ (Moment.offsetText (some o)).toList) =
      some (micros, some o) := by
  -- The offset begins with its sign, which does not occur before it.
  obtain ⟨s, hs, hneg, htext⟩ : ∃ s : Char, (s = '-' ∨ s = '+') ∧ (s == '-') = decide (o < 0) ∧
      (Moment.offsetText (some o)).toList = s :: (clockText o.natAbs false).toList := by
    by_cases h : o < 0
    · exact ⟨'-', .inl rfl, by simp [h], by simp [Moment.offsetText, h]⟩
    · exact ⟨'+', .inr rfl, by simp [h], by simp [Moment.offsetText, h]⟩
  have hclock : ∀ c ∈ (clockText micros true).toList, (c != s) = true := by
    intro c hc
    have := no_sign_of_mem_clockText hc
    rcases hs with rfl | rfl <;> simp [this]
  -- So the text is split at the sign.
  have hfind : ((clockText micros true).toList ++ s :: (clockText o.natAbs false).toList).find?
      (fun c => c == '-' || c == '+' || c == 'Z') = some s := by
    rw [List.find?_append, List.find?_eq_none.mpr, Option.none_or]
    · rcases hs with rfl | rfl <;> rfl
    · intro c hc
      simpa [and_assoc] using no_sign_of_mem_clockText hc
  have htake : ((clockText micros true).toList ++ s :: (clockText o.natAbs false).toList).takeWhile
      (· != s) = (clockText micros true).toList := by
    rw [List.takeWhile_append_of_pos hclock]
    simp
  have hdrop : ((clockText micros true).toList ++ s :: (clockText o.natAbs false).toList).dropWhile
      (· != s) = s :: (clockText o.natAbs false).toList := by
    rw [List.dropWhile_append_of_pos hclock]
    simp
  have hz : s ≠ 'Z' := by rcases hs with rfl | rfl <;> decide
  simp [time?, htext, hfind, htake, hdrop, hz, clock?_clockText h, timeOfDay?_parts h, hneg,
    offset?_clockText ho]

/-! ### Dates -/

/-- A number of two digits does not begin as a week does, and is read as it is. -/
theorem padded_two {n : Nat} (h : n < 100) :
    ∃ a b, (padded 2 n).toList = [a, b] ∧ a ≠ 'W' ∧ number? [a, b] 2 = some n := by
  have hlength := length_padded (by omega) (show n < 10 ^ 2 from h)
  obtain ⟨a, b, hab⟩ := List.length_eq_two.mp hlength
  have hdigit : a.isDigit := isDigit_of_mem_padded (hab ▸ List.mem_cons_self)
  refine ⟨a, b, hab, ?_, hab ▸ number?_padded (by omega) h⟩
  rintro rfl
  exact absurd hdigit (by decide)

/-- A number of four digits is read as it is. -/
theorem padded_four {n : Nat} (h : n < 10000) :
    ∃ a b c d, (padded 4 n).toList = [a, b, c, d] ∧ number? [a, b, c, d] 4 = some n := by
  have hlength := length_padded (by omega) (show n < 10 ^ 4 from h)
  obtain ⟨a, b, c, d, habcd⟩ := List.length_eq_four.mp hlength
  exact ⟨a, b, c, d, habcd, habcd ▸ number?_padded (by omega) h⟩

/-- The year, the month and the day of a date fit into their digits. -/
theorem parts_lt {d : Date} (h : Date.ofParts? d.year d.month d.day = some d) :
    d.year < 10000 ∧ d.month < 100 ∧ d.day < 100 := by
  have hlength : Date.monthLength d.year d.month ≤ 31 := by
    unfold Date.monthLength
    split <;> try split
    all_goals omega
  simp only [Date.ofParts?, Option.ite_none_right_eq_some] at h
  omega

/-- A written date is the first ten characters of a text, and it is read back. -/
theorem date?_dateText {d : Date} (h : Date.ofParts? d.year d.month d.day = some d) :
    (Moment.dateText d).toList.length = 10 ∧
      (∀ rest, dateLength? ((Moment.dateText d).toList ++ rest) = some 10) ∧
        date? (Moment.dateText d).toList = some d := by
  obtain ⟨hyear, hmonth, hday⟩ := parts_lt h
  obtain ⟨y₁, y₂, y₃, y₄, hy, hyear⟩ := padded_four hyear
  obtain ⟨m₁, m₂, hm, hw, hmonth⟩ := padded_two hmonth
  obtain ⟨d₁, d₂, hd, -, hday⟩ := padded_two hday
  have htext : (Moment.dateText d).toList = [y₁, y₂, y₃, y₄, '-', m₁, m₂, '-', d₁, d₂] := by
    simp [Moment.dateText, hy, hm, hd]
  refine ⟨by simp [htext], fun rest => ?_, ?_⟩
  · simp [htext, dateLength?, hw]
  · simp [htext, date?, hw, hyear, hmonth, hday, h]

end Iso

namespace Moment

/-- A moment that a calendar and a clock can show: its date exists, its time lies within the day,
and so does the offset of its clock, if it knows one. -/
structure Real (t : Moment) : Prop where
  date : Date.ofParts? t.date.year t.date.month t.date.day = some t.date
  timeOfDay : t.timeOfDay < day
  offset : ∀ o ∈ t.offset, o.natAbs < day

/-- A real moment is read back from its written form. -/
theorem ofIso?_text {t : Moment} (h : t.Real) : ofIso? t.text = some t := by
  obtain ⟨hlength, hdate, hread⟩ := Iso.date?_dateText h.date
  have htime : Iso.time? ((clockText t.timeOfDay true).toList ++ (offsetText t.offset).toList) =
      some (t.timeOfDay, t.offset) := by
    cases ho : t.offset with
    | none => simpa [offsetText] using Iso.time?_clockText h.timeOfDay
    | some o => exact Iso.time?_clockText_offset h.timeOfDay (h.offset o ho)
  have htext : t.text.toList = (dateText t.date).toList ++
      'T' :: ((clockText t.timeOfDay true).toList ++ (offsetText t.offset).toList) := by
    simp [text, textWith]
  simp [ofIso?, htext, hdate, List.take_left' hlength, List.drop_left' hlength, hread, htime]

end Moment

end CatalogOperator
