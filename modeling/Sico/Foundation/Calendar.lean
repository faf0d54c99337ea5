import Mathlib.Algebra.Group.Nat.Defs
import Sico.Foundation.Numerals

/-! # Dates and times

Dates of the Gregorian calendar and times of a day, with the distance from universal time if it is
known, and the texts of them in the extended form: years have four digits, fractions of a second six,
and both a fraction and the seconds of a distance are left out where there is nothing to tell. Each is
read from its text.
-/

namespace Foundation.Calendar

section Data

def isLeapYear (year : ℕ) : Bool := year % 4 = 0 && (year % 100 ≠ 0 || year % 400 = 0)

def daysInMonth (year month : ℕ) : ℕ :=
  if month = 2 then if isLeapYear year then 29 else 28
  else if month ∈ [4, 6, 9, 11] then 30
  else 31

def IsDate (year month day : ℕ) : Prop :=
  1 ≤ year ∧ year ≤ 9999 ∧ 1 ≤ month ∧ month ≤ 12 ∧ 1 ≤ day ∧ day ≤ daysInMonth year month

instance (year month day : ℕ) : Decidable (IsDate year month day) := by
  unfold IsDate
  infer_instance

structure Date where
  year : ℕ
  month : ℕ
  day : ℕ
  valid : IsDate year month day
  deriving DecidableEq

/-- A distance from universal time of less than a day, in microseconds. -/
structure Offset where
  microseconds : ℤ
  valid : microseconds.natAbs < 86400000000
  deriving DecidableEq

def IsTime (hour minute second microsecond : ℕ) : Prop :=
  hour < 24 ∧ minute < 60 ∧ second < 60 ∧ microsecond < 1000000

instance (hour minute second microsecond : ℕ) : Decidable (IsTime hour minute second microsecond) := by
  unfold IsTime
  infer_instance

structure Time where
  hour : ℕ
  minute : ℕ
  second : ℕ
  microsecond : ℕ
  offset : Option Offset := none
  valid : IsTime hour minute second microsecond
  deriving DecidableEq

structure DateTime where
  date : Date
  time : Time
  deriving DecidableEq

end Data

section Writing

/-- The last digits of a number, as many as there is room for. -/
def padded : ℕ → ℕ → List Char
  | 0, _ => []
  | width + 1, number => padded width (number / 10) ++ [Nat.digitChar (number % 10)]

def fraction (microsecond : ℕ) : List Char := if microsecond = 0 then [] else '.' :: padded 6 microsecond

def Date.isoformat (date : Date) : List Char :=
  padded 4 date.year ++ '-' :: padded 2 date.month ++ '-' :: padded 2 date.day

/-- The text of a distance, with its seconds if there are any. -/
def Offset.isoformat (offset : Offset) : List Char :=
  let micros := offset.microseconds.natAbs
  let second := micros / 1000000 % 60
  let microsecond := micros % 1000000
  (if offset.microseconds < 0 then '-' else '+') :: padded 2 (micros / 3600000000) ++
    ':' :: padded 2 (micros / 60000000 % 60) ++
      if second = 0 ∧ microsecond = 0 then [] else ':' :: padded 2 second ++ fraction microsecond

def offsetText : Option Offset → List Char
  | none => []
  | some offset => offset.isoformat

def Time.isoformat (time : Time) : List Char :=
  padded 2 time.hour ++ ':' :: padded 2 time.minute ++ ':' :: padded 2 time.second ++ fraction time.microsecond ++
    offsetText time.offset

def DateTime.isoformat (moment : DateTime) : List Char := moment.date.isoformat ++ 'T' :: moment.time.isoformat

end Writing

section Reading

/-- A number of so many digits at the start of a text, and what is left behind it. -/
def takeNumber (width : ℕ) (text : List Char) : Option (ℕ × List Char) :=
  if (text.take width).length = width ∧ (text.take width).all Char.isDigit then
    some (Nat.ofDigitChars 10 (text.take width) 0, text.drop width)
  else none

/-- What is left of a text behind a letter that it starts with. -/
def takeLetter (letter : Char) : List Char → Option (List Char)
  | [] => none
  | first :: rest => if first = letter then some rest else none

def scanDate (text : List Char) : Option (Date × List Char) := do
  let (year, text) ← takeNumber 4 text
  let text ← takeLetter '-' text
  let (month, text) ← takeNumber 2 text
  let text ← takeLetter '-' text
  let (day, text) ← takeNumber 2 text
  if valid : IsDate year month day then return (⟨year, month, day, valid⟩, text) else none

def scanFraction (text : List Char) : Option (ℕ × List Char) :=
  match takeLetter '.' text with
  | some rest => takeNumber 6 rest
  | none => some (0, text)

/-- The seconds of a clock, if it tells them. -/
def scanSeconds (text : List Char) : Option ((ℕ × ℕ) × List Char) :=
  match takeLetter ':' text with
  | some rest => do
      let (second, rest) ← takeNumber 2 rest
      let (microsecond, rest) ← scanFraction rest
      return ((second, microsecond), rest)
  | none => some ((0, 0), text)

/-- What a clock tells: hours and minutes, seconds and their fraction. -/
def scanClock (text : List Char) : Option ((ℕ × ℕ × ℕ × ℕ) × List Char) := do
  let (hour, text) ← takeNumber 2 text
  let text ← takeLetter ':' text
  let (minute, text) ← takeNumber 2 text
  let (seconds, text) ← scanSeconds text
  return ((hour, minute, seconds.1, seconds.2), text)

def toMicroseconds (clock : ℕ × ℕ × ℕ × ℕ) : ℕ :=
  ((clock.1 * 60 + clock.2.1) * 60 + clock.2.2.1) * 1000000 + clock.2.2.2

def offsetOf (microseconds : ℤ) : Option Offset :=
  if valid : microseconds.natAbs < 86400000000 then some ⟨microseconds, valid⟩ else none

/-- The distance that a text tells to its end, if it tells one. -/
def scanOffset (text : List Char) : Option (Option Offset) :=
  match text with
  | [] => some none
  | sign :: rest =>
      if sign = 'Z' then if rest = [] then (offsetOf 0).map some else none
      else if sign = '+' ∨ sign = '-' then do
        let (clock, rest) ← scanClock rest
        let micros : ℤ := toMicroseconds clock
        if rest = [] then (offsetOf (if sign = '-' then -micros else micros)).map some else none
      else none

/-- `date.fromisoformat`. -/
def dateFromIsoformat (text : List Char) : Option Date := do
  let (date, rest) ← scanDate text
  if rest = [] then return date else none

/-- `time.fromisoformat`. -/
def timeFromIsoformat (text : List Char) : Option Time := do
  let (clock, rest) ← scanClock text
  let offset ← scanOffset rest
  if valid : IsTime clock.1 clock.2.1 clock.2.2.1 clock.2.2.2 then
    return { hour := clock.1, minute := clock.2.1, second := clock.2.2.1, microsecond := clock.2.2.2, offset, valid }
  else none

/-- `datetime.fromisoformat`: any letter parts the time from the date, and a date alone is its start. -/
def datetimeFromIsoformat (text : List Char) : Option DateTime := do
  let (date, rest) ← scanDate text
  match rest with
  | [] =>
      return ⟨date, { hour := 0, minute := 0, second := 0, microsecond := 0, valid := by decide }⟩
  | _ :: rest => do
      let time ← timeFromIsoformat rest
      return ⟨date, time⟩

end Reading

section RoundTrip

theorem length_padded (width number : ℕ) : (padded width number).length = width := by
  induction width generalizing number with
  | zero => rfl
  | succ width ih => rw [padded, List.length_append, ih, List.length_singleton]

theorem isDigit_padded (width number : ℕ) : ∀ letter ∈ padded width number, letter.isDigit := by
  have digit : ∀ digit < 10, (Nat.digitChar digit).isDigit := by decide
  induction width generalizing number with
  | zero =>
      intro letter listed
      cases listed
  | succ width ih =>
      intro letter listed
      rw [padded] at listed
      rcases List.mem_append.mp listed with front | last
      · exact ih _ letter front
      · rw [List.mem_singleton.mp last]
        exact digit _ (Nat.mod_lt _ (by decide))

theorem ofDigitChars_padded (width number : ℕ) (fits : number < 10 ^ width) :
    Nat.ofDigitChars 10 (padded width number) 0 = number := by
  induction width generalizing number with
  | zero =>
      rw [Nat.pow_zero] at fits
      rw [padded, Nat.ofDigitChars_nil]
      omega
  | succ width ih =>
      have shorter : number / 10 < 10 ^ width := by
        rw [Nat.pow_succ] at fits
        exact Nat.div_lt_of_lt_mul (by omega)
      rw [padded, Nat.ofDigitChars_append, ih _ shorter, Nat.ofDigitChars_cons_digitChar_of_lt_ten
        (Nat.mod_lt _ (by decide)), Nat.ofDigitChars_nil]
      omega

theorem takeNumber_padded {width number : ℕ} (rest : List Char) (fits : number < 10 ^ width) :
    takeNumber width (padded width number ++ rest) = some (number, rest) := by
  have take : (padded width number ++ rest).take width = padded width number :=
    List.take_left' (length_padded width number)
  have drop : (padded width number ++ rest).drop width = rest := List.drop_left' (length_padded width number)
  unfold takeNumber
  rw [take, drop, if_pos, ofDigitChars_padded width number fits]
  exact ⟨length_padded width number, List.all_eq_true.mpr (isDigit_padded width number)⟩

theorem takeLetter_cons (letter : Char) (rest : List Char) : takeLetter letter (letter :: rest) = some rest :=
  if_pos rfl

theorem takeLetter_other {letter : Char} {text : List Char} (other : ∀ first ∈ text.head?, first ≠ letter) :
    takeLetter letter text = none := by
  cases text with
  | nil => rfl
  | cons first rest => exact if_neg (other first rfl)

theorem daysInMonth_le (year month : ℕ) : daysInMonth year month ≤ 31 := by
  unfold daysInMonth
  split
  · split <;> decide
  · split <;> decide

theorem scanDate_isoformat (date : Date) (rest : List Char) : scanDate (date.isoformat ++ rest) = some (date, rest) := by
  obtain ⟨year, month, day, valid⟩ := date
  have bounds := valid
  obtain ⟨-, yearFits, -, monthFits, -, dayFits⟩ := bounds
  have month31 := daysInMonth_le year month
  unfold scanDate Date.isoformat
  simp only [List.append_assoc, List.cons_append]
  rw [takeNumber_padded _ (by omega)]
  dsimp only [bind, Option.bind]
  rw [takeLetter_cons]
  dsimp only
  rw [takeNumber_padded _ (by omega)]
  dsimp only
  rw [takeLetter_cons]
  dsimp only
  rw [takeNumber_padded _ (by omega)]
  dsimp only
  rw [dif_pos valid]
  rfl

theorem scanFraction_fraction {microsecond : ℕ} {rest : List Char} (fits : microsecond < 1000000)
    (stops : ∀ first ∈ rest.head?, first ≠ '.') :
    scanFraction (fraction microsecond ++ rest) = some (microsecond, rest) := by
  unfold scanFraction fraction
  by_cases zero : microsecond = 0
  · rw [if_pos zero, List.nil_append, takeLetter_other stops, zero]
  · rw [if_neg zero, List.cons_append, takeLetter_cons]
    exact takeNumber_padded rest fits

theorem scanClock_seconds {hour minute second microsecond : ℕ} {rest : List Char} (hourFits : hour < 100)
    (minuteFits : minute < 100) (secondFits : second < 100) (microsecondFits : microsecond < 1000000)
    (stops : ∀ first ∈ rest.head?, first ≠ '.') :
    scanClock (padded 2 hour ++ ':' :: (padded 2 minute ++ ':' :: (padded 2 second ++ (fraction microsecond ++ rest)))) =
      some ((hour, minute, second, microsecond), rest) := by
  unfold scanClock
  rw [takeNumber_padded _ hourFits]
  dsimp only [bind, Option.bind]
  rw [takeLetter_cons]
  dsimp only
  rw [takeNumber_padded _ minuteFits]
  dsimp only
  unfold scanSeconds
  rw [takeLetter_cons]
  dsimp only [bind, Option.bind]
  rw [takeNumber_padded _ secondFits]
  dsimp only
  rw [scanFraction_fraction microsecondFits stops]
  rfl

theorem scanClock_minutes {hour minute : ℕ} {rest : List Char} (hourFits : hour < 100) (minuteFits : minute < 100)
    (stops : ∀ first ∈ rest.head?, first ≠ ':') :
    scanClock (padded 2 hour ++ ':' :: (padded 2 minute ++ rest)) = some ((hour, minute, 0, 0), rest) := by
  unfold scanClock
  rw [takeNumber_padded _ hourFits]
  dsimp only [bind, Option.bind]
  rw [takeLetter_cons]
  dsimp only
  rw [takeNumber_padded _ minuteFits]
  dsimp only
  unfold scanSeconds
  rw [takeLetter_other stops]
  rfl

theorem offsetOf_microseconds (offset : Offset) : offsetOf offset.microseconds = some offset := dif_pos offset.valid

theorem scanOffset_cons {sign : Char} {text : List Char} {clock : ℕ × ℕ × ℕ × ℕ}
    (signed : sign = '+' ∨ sign = '-') (read : scanClock text = some (clock, [])) :
    scanOffset (sign :: text) =
      (offsetOf (if sign = '-' then -(toMicroseconds clock : ℤ) else (toMicroseconds clock : ℤ))).map some := by
  have other : sign ≠ 'Z' := by
    rcases signed with rfl | rfl <;> decide
  rw [scanOffset, if_neg other, if_pos signed, read]
  rfl

theorem scanOffset_isoformat (offset : Offset) : scanOffset offset.isoformat = some (some offset) := by
  have valid := offset.valid
  have kept := offsetOf_microseconds offset
  have sign : (if offset.microseconds < 0 then '-' else '+') = '+' ∨
      (if offset.microseconds < 0 then '-' else '+') = '-' := by
    split
    · exact .inr rfl
    · exact .inl rfl
  have signed : (if (if offset.microseconds < 0 then '-' else '+') = '-' then -(offset.microseconds.natAbs : ℤ)
      else (offset.microseconds.natAbs : ℤ)) = offset.microseconds := by
    by_cases negative : offset.microseconds < 0
    · rw [if_pos negative, if_pos rfl]
      omega
    · rw [if_neg negative, if_neg (by decide)]
      omega
  unfold Offset.isoformat
  dsimp only
  generalize offset.microseconds.natAbs = amount at valid signed ⊢
  have clock : scanClock (padded 2 (amount / 3600000000) ++ ':' :: (padded 2 (amount / 60000000 % 60) ++
      if amount / 1000000 % 60 = 0 ∧ amount % 1000000 = 0 then []
      else ':' :: (padded 2 (amount / 1000000 % 60) ++ fraction (amount % 1000000)))) =
        some ((amount / 3600000000, amount / 60000000 % 60, amount / 1000000 % 60, amount % 1000000), []) := by
    split
    · next none_ =>
        rw [none_.1, none_.2]
        exact scanClock_minutes (by omega) (by omega) (by intro first here; cases here)
    · have read := @scanClock_seconds (amount / 3600000000) (amount / 60000000 % 60) (amount / 1000000 % 60)
        (amount % 1000000) [] (by omega) (by omega) (by omega) (by omega) (by intro first here; cases here)
      rw [List.append_nil] at read
      exact read
  have whole : toMicroseconds (amount / 3600000000, amount / 60000000 % 60, amount / 1000000 % 60,
      amount % 1000000) = amount := by
    unfold toMicroseconds
    dsimp only
    omega
  simp only [List.cons_append, List.append_assoc]
  rw [scanOffset_cons sign clock, whole, signed, kept]
  rfl

theorem head?_offset {offset : Option Offset} {first : Char}
    (here : first ∈ (offsetText offset).head?) : first = '-' ∨ first = '+' := by
  cases offset with
  | none => cases here
  | some offset =>
      unfold offsetText Offset.isoformat at here
      have same := Option.some.inj here
      rw [← same]
      split
      · exact .inl rfl
      · exact .inr rfl

theorem timeFromIsoformat_isoformat (time : Time) : timeFromIsoformat time.isoformat = some time := by
  obtain ⟨hour, minute, second, microsecond, offset, valid⟩ := time
  have bounds := valid
  obtain ⟨hourFits, minuteFits, secondFits, microsecondFits⟩ := bounds
  have stops : ∀ first ∈ (offsetText offset).head?, first ≠ '.' := by
    intro first here
    rcases head?_offset here with rfl | rfl <;> decide
  have read := @scanClock_seconds hour minute second microsecond
    (offsetText offset) (by omega) (by omega) (by omega)
    microsecondFits stops
  have rest : scanOffset (offsetText offset) = some offset := by
    cases offset with
    | none => rfl
    | some offset => exact scanOffset_isoformat offset
  unfold timeFromIsoformat Time.isoformat
  simp only [List.append_assoc, List.cons_append]
  rw [read]
  dsimp only [bind, Option.bind]
  rw [rest]
  dsimp only
  rw [dif_pos valid]
  rfl

theorem dateFromIsoformat_isoformat (date : Date) : dateFromIsoformat date.isoformat = some date := by
  have read := scanDate_isoformat date []
  rw [List.append_nil] at read
  unfold dateFromIsoformat
  rw [read]
  rfl

theorem datetimeFromIsoformat_isoformat (moment : DateTime) :
    datetimeFromIsoformat moment.isoformat = some moment := by
  unfold datetimeFromIsoformat DateTime.isoformat
  rw [scanDate_isoformat]
  dsimp only [bind, Option.bind]
  rw [timeFromIsoformat_isoformat]
  rfl

end RoundTrip

end Foundation.Calendar
