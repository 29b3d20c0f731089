import Mathlib.Data.List.DropRight
import SchemaForge.Proofs.Text.Digits
import SchemaForge.Toml.Datetime
set_option autoImplicit false

/-!
# The texts of dates and times

The text of a date or time is put together from digits of given widths. Which text this is, is said
here part by part, apart from the functions that write it.

## Main definitions

* `SchemaForge.Toml.IsFraction` — the text of a fraction of a second.
* `SchemaForge.Toml.Date.HasText`, `SchemaForge.Toml.Time.HasText`, `SchemaForge.Toml.Offset.HasText`
  — the texts of the parts.
* `SchemaForge.Toml.Datetime.HasText` — the text of a date or time.

## Main results

* `SchemaForge.Toml.Datetime.hasText_iff` — a date or time has the text that is written for it, and
  no other.
-/

namespace SchemaForge.Toml

open Text

/-! ### Parts of texts -/

/-- The text of a fraction of a second: nothing if there is none, else a point and the nine digits
of the nanoseconds without the zeros at their end. -/
inductive IsFraction : ℕ → List Char → Prop where
  | whole : IsFraction 0 []
  | places {nanosecond zeros : ℕ} {places : List Char} (h : 0 < nanosecond)
      (hdigits : IsPadded 9 nanosecond (places ++ List.replicate zeros '0'))
      (hlast : places.getLast? ≠ some '0') : IsFraction nanosecond ('.' :: places)

/-- The text of a date: the year in four digits, the month and the day in two. -/
inductive Date.HasText (date : Date) : List Char → Prop where
  | intro {year month day : List Char} (hyear : IsPadded 4 date.year year)
      (hmonth : IsPadded 2 date.month month) (hday : IsPadded 2 date.day day) :
      date.HasText (year ++ '-' :: (month ++ '-' :: day))

/-- The text of a time: hour, minute and second in two digits, and the fraction. -/
inductive Time.HasText (time : Time) : List Char → Prop where
  | intro {hour minute second fraction : List Char} (hhour : IsPadded 2 time.hour hour)
      (hminute : IsPadded 2 time.minute minute) (hsecond : IsPadded 2 time.second second)
      (hfraction : IsFraction time.nanosecond fraction) :
      time.HasText (hour ++ ':' :: (minute ++ ':' :: (second ++ fraction)))

/-- The text of an offset: a letter, or the sign, the hours and the minutes. -/
inductive Offset.HasText : Offset → List Char → Prop where
  | utc : Offset.HasText .utc ['Z']
  | east {n : ℤ} {hours minutes : List Char} (h : 0 ≤ n)
      (hhours : IsPadded 2 (n.natAbs / 60) hours)
      (hminutes : IsPadded 2 (n.natAbs % 60) minutes) :
      Offset.HasText (.minutes n) ('+' :: (hours ++ ':' :: minutes))
  | west {n : ℤ} {hours minutes : List Char} (h : n < 0)
      (hhours : IsPadded 2 (n.natAbs / 60) hours)
      (hminutes : IsPadded 2 (n.natAbs % 60) minutes) :
      Offset.HasText (.minutes n) ('-' :: (hours ++ ':' :: minutes))

/-- The text of a date or time. A letter stands between the two. -/
inductive Datetime.HasText : Datetime → List Char → Prop where
  | date {date : Date} {cs : List Char} (h : date.HasText cs) : Datetime.HasText (.date date) cs
  | time {time : Time} {cs : List Char} (h : time.HasText cs) : Datetime.HasText (.time time) cs
  | nearby {date : Date} {time : Time} {day clock : List Char} (hdate : date.HasText day)
      (htime : time.HasText clock) :
      Datetime.HasText (.moment date time none) (day ++ 'T' :: clock)
  | moment {date : Date} {time : Time} {offset : Offset} {day clock zone : List Char}
      (hdate : date.HasText day) (htime : time.HasText clock) (hoffset : offset.HasText zone) :
      Datetime.HasText (.moment date time (some offset)) (day ++ 'T' :: (clock ++ zone))

/-! ### One text -/

variable {cs ds : List Char}

/-- Zeros at the end are dropped, and nothing else. -/
theorem rdropWhile_append_zeros (h : cs.getLast? ≠ some '0') (zeros : ℕ) :
    (cs ++ List.replicate zeros '0').rdropWhile (· == '0') = cs := by
  induction zeros with
  | zero =>
    rw [List.replicate_zero, List.append_nil, List.rdropWhile_eq_self_iff]
    intro hne hlast
    exact h (List.getLast?_eq_some_getLast hne ▸ congrArg some (beq_iff_eq.1 hlast))
  | succ zeros ih =>
    rw [List.replicate_succ', ← List.append_assoc, List.rdropWhile_concat_pos _ _ _ rfl, ih]

theorem IsFraction.unique {nanosecond : ℕ} (hcs : IsFraction nanosecond cs)
    (hds : IsFraction nanosecond ds) : cs = ds := by
  cases hcs with
  | whole =>
    cases hds with
    | whole => rfl
    | places hpos => exact absurd hpos (lt_irrefl 0)
  | places hpos hdigits hlast =>
    cases hds with
    | whole => exact absurd hpos (lt_irrefl 0)
    | places _ hdigits' hlast' =>
      rw [← rdropWhile_append_zeros hlast, hdigits.unique hdigits',
        rdropWhile_append_zeros hlast']

theorem Date.HasText.unique {date : Date} (hcs : date.HasText cs) (hds : date.HasText ds) :
    cs = ds := by
  obtain ⟨hyear, hmonth, hday⟩ := hcs
  obtain ⟨hyear', hmonth', hday'⟩ := hds
  rw [hyear.unique hyear', hmonth.unique hmonth', hday.unique hday']

theorem Time.HasText.unique {time : Time} (hcs : time.HasText cs) (hds : time.HasText ds) :
    cs = ds := by
  obtain ⟨hhour, hminute, hsecond, hfraction⟩ := hcs
  obtain ⟨hhour', hminute', hsecond', hfraction'⟩ := hds
  rw [hhour.unique hhour', hminute.unique hminute', hsecond.unique hsecond',
    hfraction.unique hfraction']

theorem Offset.HasText.unique {offset : Offset} (hcs : offset.HasText cs)
    (hds : offset.HasText ds) : cs = ds := by
  cases hcs with
  | utc =>
    cases hds
    rfl
  | east h hhours hminutes =>
    cases hds with
    | east _ hhours' hminutes' => rw [hhours.unique hhours', hminutes.unique hminutes']
    | west h' => exact absurd h' (not_lt.2 h)
  | west h hhours hminutes =>
    cases hds with
    | east h' => exact absurd h (not_lt.2 h')
    | west _ hhours' hminutes' => rw [hhours.unique hhours', hminutes.unique hminutes']

theorem Datetime.HasText.unique {moment : Datetime} (hcs : moment.HasText cs)
    (hds : moment.HasText ds) : cs = ds := by
  cases hcs with
  | date h =>
    cases hds with
    | date h' => exact h.unique h'
  | time h =>
    cases hds with
    | time h' => exact h.unique h'
  | nearby hdate htime =>
    cases hds with
    | nearby hdate' htime' => rw [hdate.unique hdate', htime.unique htime']
  | moment hdate htime hoffset =>
    cases hds with
    | moment hdate' htime' hoffset' =>
      rw [hdate.unique hdate', htime.unique htime', hoffset.unique hoffset']

/-! ### The text that is written -/

theorem isPadded_padded {width : ℕ} (h : 0 < width) (n : ℕ) :
    IsPadded width n (padded width n).toList := by
  rw [padded, String.toList_ofList]
  exact isPadded_leftpad h n

theorem isFraction_fractionText (nanosecond : ℕ) :
    IsFraction nanosecond (fractionText nanosecond).toList := by
  unfold fractionText
  split
  · rename_i hzero
    subst hzero
    exact .whole
  · rename_i hne
    have hdigits := isPadded_leftpad (by decide : 0 < 9) nanosecond
    generalize (Nat.toDigits 10 nanosecond).leftpad 9 '0' = digits at hdigits
    -- the zeros that are dropped are put behind the places again
    have hzeros : digits.rtakeWhile (· == '0') =
        List.replicate (digits.rtakeWhile (· == '0')).length '0' :=
      List.eq_replicate_of_mem fun c hc => by simpa using List.mem_rtakeWhile_imp hc
    have hsplit : digits.rdropWhile (· == '0') ++ digits.rtakeWhile (· == '0') = digits :=
      List.rdropWhile_append_rtakeWhile
    rw [← hsplit, hzeros] at hdigits
    have hplaces : ("." ++ String.ofList (digits.rdropWhile (· == '0'))).toList =
        '.' :: digits.rdropWhile (· == '0') := by simp
    refine hplaces ▸ .places (Nat.pos_of_ne_zero hne) hdigits fun hlast => ?_
    have hnonempty := List.ne_nil_of_mem (List.mem_of_getLast? hlast)
    have heq := (List.getLast?_eq_some_getLast hnonempty).symm.trans hlast
    exact List.rdropWhile_last_not _ _ hnonempty (by simpa using Option.some.inj heq)

theorem Date.hasText_text (date : Date) : date.HasText date.text.toList := by
  have hdate := Date.HasText.intro (isPadded_padded (by decide) date.year)
    (isPadded_padded (by decide) date.month) (isPadded_padded (by decide) date.day)
  simpa [Date.text] using hdate

theorem Time.hasText_text (time : Time) : time.HasText time.text.toList := by
  have htime := Time.HasText.intro (isPadded_padded (by decide) time.hour)
    (isPadded_padded (by decide) time.minute) (isPadded_padded (by decide) time.second)
    (isFraction_fractionText time.nanosecond)
  simpa [Time.text] using htime

theorem Offset.hasText_text (offset : Offset) : offset.HasText offset.text.toList := by
  cases offset with
  | utc => exact .utc
  | minutes n =>
    have hhours := isPadded_padded (by decide : 0 < 2) (n.natAbs / 60)
    have hminutes := isPadded_padded (by decide : 0 < 2) (n.natAbs % 60)
    rcases lt_or_ge n 0 with hlt | hge
    · simpa [Offset.text, hlt] using Offset.HasText.west hlt hhours hminutes
    · simpa [Offset.text, not_lt.2 hge] using Offset.HasText.east hge hhours hminutes

theorem Datetime.hasText_text (moment : Datetime) : moment.HasText moment.text.toList := by
  cases moment with
  | date date => exact .date date.hasText_text
  | time time => exact .time time.hasText_text
  | moment date time offset =>
    cases offset with
    | none =>
      simpa [Datetime.text] using Datetime.HasText.nearby date.hasText_text time.hasText_text
    | some offset =>
      simpa [Datetime.text] using
        Datetime.HasText.moment date.hasText_text time.hasText_text offset.hasText_text

/-- **Texts of dates and times.** A date is written as year, month and day, a time as hour, minute
and second with the fraction behind them, and an offset as hours and minutes with their sign. -/
theorem Datetime.hasText_iff {moment : Datetime} {text : String} :
    moment.HasText text.toList ↔ moment.text = text := by
  constructor
  · exact fun h => String.toList_injective (moment.hasText_text.unique h)
  · rintro rfl
    exact moment.hasText_text

end SchemaForge.Toml
