import Mathlib.Tactic.IntervalCases
import StellarAlerts.DigitGroups

/-!
Times of JavaScript and the text that `toISOString` gives them. The text determines the
time (`readIso_toISOString`).
-/
namespace StellarAlerts.DateTexts
open DigitGroups

/-- A time value: milliseconds from 1970 on, within the range of `Date`. -/
structure Date where
  ms : Int
  inRange : -8640000000000000 ≤ ms ∧ ms ≤ 8640000000000000
deriving DecidableEq

theorem zero_inRange : -8640000000000000 ≤ (0 : Int) ∧ (0 : Int) ≤ 8640000000000000 := by decide
def dayFromYear (year : Int) : Int :=
  365 * (year - 1970) + (year - 1969) / 4 - (year - 1901) / 100 + (year - 1601) / 400

/-- The year of a day, which a mean year's length misses by one at most. -/
def yearFromDay (day : Int) : Int :=
  let near := 1970 + day * 400 / 146097
  if day < dayFromYear near then near - 1 else if dayFromYear (near + 1) ≤ day then near + 1 else near

def leapDay (year : Int) : Int := dayFromYear (year + 1) - dayFromYear year - 365

/-- The day of the year on which a month begins. -/
def monthStart (leap : Int) (month : Nat) : Int :=
  match month with
  | 1 => 0
  | 2 => 31
  | 3 => 59 + leap
  | 4 => 90 + leap
  | 5 => 120 + leap
  | 6 => 151 + leap
  | 7 => 181 + leap
  | 8 => 212 + leap
  | 9 => 243 + leap
  | 10 => 273 + leap
  | 11 => 304 + leap
  | _ => 334 + leap

def lastBegun (leap day : Int) : Nat → Nat
  | 0 => 1
  | months + 1 => if monthStart leap (months + 1) ≤ day then months + 1 else lastBegun leap day months

def monthOf (leap day : Int) : Nat := lastBegun leap day 12

structure Fields where
  year : Int
  month : Nat
  date : Nat
  hours : Nat
  minutes : Nat
  seconds : Nat
  milliseconds : Nat
deriving DecidableEq

def fieldsOf (ms : Int) : Fields :=
  let day := ms / 86400000
  let time := (ms % 86400000).toNat
  let year := yearFromDay day
  let dayInYear := day - dayFromYear year
  let month := monthOf (leapDay year) dayInYear
  { year, month
    date := (dayInYear - monthStart (leapDay year) month + 1).toNat
    hours := time / 3600000
    minutes := time / 60000 % 60
    seconds := time / 1000 % 60
    milliseconds := time % 1000 }

def timeOf (f : Fields) : Int :=
  (dayFromYear f.year + monthStart (leapDay f.year) f.month + f.date - 1) * 86400000 + f.hours * 3600000 +
    f.minutes * 60000 + f.seconds * 1000 + f.milliseconds

theorem mean_year (day : Int) :
    dayFromYear (1970 + day * 400 / 146097 - 1) ≤ day ∧ day < dayFromYear (1970 + day * 400 / 146097 + 1 + 1) := by
  unfold dayFromYear
  omega

theorem yearFromDay_begun (day : Int) :
    dayFromYear (yearFromDay day) ≤ day ∧ day < dayFromYear (yearFromDay day + 1) := by
  obtain ⟨begun,unended⟩ := mean_year day
  simp only [yearFromDay]
  generalize 1970 + day * 400 / 146097 = near at begun unended ⊢
  by_cases early : day < dayFromYear near
  · rw [if_pos early]
    exact ⟨begun,by rwa [Int.sub_add_cancel]⟩
  · rw [if_neg early]
    by_cases late : dayFromYear (near + 1) ≤ day
    · rw [if_pos late]
      exact ⟨late,unended⟩
    · rw [if_neg late]
      omega

theorem leapDay_range (year : Int) : 0 ≤ leapDay year ∧ leapDay year ≤ 1 := by
  unfold leapDay dayFromYear
  omega

theorem lastBegun_begun {leap day : Int} (begun : 0 ≤ day) {months : Nat} (some_ : 1 ≤ months) :
    1 ≤ lastBegun leap day months ∧ lastBegun leap day months ≤ months ∧
      monthStart leap (lastBegun leap day months) ≤ day ∧
      (lastBegun leap day months < months → day < monthStart leap (lastBegun leap day months + 1)) := by
  induction months with
  | zero => omega
  | succ months ih =>
    unfold lastBegun
    by_cases here : monthStart leap (months + 1) ≤ day
    · rw [if_pos here]
      omega
    · rw [if_neg here]
      cases months with
      | zero => exact absurd begun here
      | succ months =>
        obtain ⟨first,last,start,next⟩ := ih (by omega)
        refine ⟨first,by omega,start,fun _ => ?_⟩
        by_cases final : lastBegun leap day (months + 1) < months + 1
        · exact next final
        · rw [show lastBegun leap day (months + 1) = months + 1 by omega]
          omega

theorem month_length {leap : Int} (atLeast : 0 ≤ leap) (atMost : leap ≤ 1) {month : Nat} (first : 1 ≤ month) (last : month < 12) :
    monthStart leap (month + 1) ≤ monthStart leap month + 31 := by
  interval_cases month <;> simp only [monthStart] <;> omega

theorem monthOf_begun {leap day : Int} (atLeast : 0 ≤ leap) (atMost : leap ≤ 1) (begun : 0 ≤ day) (unended : day < 365 + leap) :
    (1 ≤ monthOf leap day ∧ monthOf leap day ≤ 12) ∧
      monthStart leap (monthOf leap day) ≤ day ∧ day < monthStart leap (monthOf leap day) + 31 := by
  obtain ⟨first,last,start,next⟩ := @lastBegun_begun leap day begun 12 (by omega)
  refine ⟨⟨first,last⟩,start,?_⟩
  show day < monthStart leap (lastBegun leap day 12) + 31
  by_cases final : lastBegun leap day 12 < 12
  · have length := month_length atLeast atMost first final
    have before := next final
    omega
  · rw [show lastBegun leap day 12 = 12 by omega]
    simp only [monthStart]
    omega

theorem day_begun (day : Int) :
    let year := yearFromDay day
    let month := monthOf (leapDay year) (day - dayFromYear year)
    (1 ≤ month ∧ month ≤ 12) ∧ monthStart (leapDay year) month ≤ day - dayFromYear year ∧
      day - dayFromYear year < monthStart (leapDay year) month + 31 := by
  obtain ⟨begun,unended⟩ := yearFromDay_begun day
  obtain ⟨atLeast,atMost⟩ := leapDay_range (yearFromDay day)
  refine monthOf_begun atLeast atMost (by omega) ?_
  unfold leapDay
  omega

structure InBounds (f : Fields) : Prop where
  month : 1 ≤ f.month ∧ f.month ≤ 12
  date : 1 ≤ f.date ∧ f.date ≤ 31
  hours : f.hours < 24
  minutes : f.minutes < 60
  seconds : f.seconds < 60
  milliseconds : f.milliseconds < 1000

theorem fieldsOf_inBounds (ms : Int) : InBounds (fieldsOf ms) := by
  obtain ⟨months,begun,unended⟩ := day_begun (ms / 86400000)
  simp only [fieldsOf]
  constructor
  · exact months
  · simp only
    omega
  · simp only
    omega
  · simp only
    omega
  · simp only
    omega
  · simp only
    omega

theorem timeOf_fieldsOf (ms : Int) : timeOf (fieldsOf ms) = ms := by
  obtain ⟨_,begun,_⟩ := day_begun (ms / 86400000)
  simp only [timeOf,fieldsOf]
  omega

theorem year_range (t : Date) : (fieldsOf t.ms).year.natAbs < 1000000 := by
  obtain ⟨begun,unended⟩ := yearFromDay_begun (t.ms / 86400000)
  have inRange := t.inRange
  simp only [fieldsOf]
  generalize yearFromDay (t.ms / 86400000) = year at begun unended ⊢
  unfold dayFromYear at begun unended
  omega

def digit (n : Nat) : Char := Char.ofNat (48 + n)

/-- The last decimal digits of a number, with zeros in front. -/
def digits : Nat → Nat → List Char
  | 0, _ => []
  | width + 1, n => digits width (n / 10) ++ [digit (n % 10)]

/-- Years outside of four digits have six and a sign. -/
def yearText (year : Int) : List Char :=
  if 0 ≤ year ∧ year ≤ 9999 then digits 4 year.toNat
  else (if year < 0 then '-' else '+') :: digits 6 year.natAbs

def isoText (f : Fields) : List Char :=
  yearText f.year ++ '-' :: (digits 2 f.month ++ '-' :: (digits 2 f.date ++ 'T' :: (digits 2 f.hours ++
    ':' :: (digits 2 f.minutes ++ ':' :: (digits 2 f.seconds ++ '.' :: (digits 3 f.milliseconds ++ ['Z']))))))

def toISOString (t : Date) : String := String.ofList (isoText (fieldsOf t.ms))

example : toISOString ⟨1709210096123,by decide⟩ = "2024-02-29T12:34:56.123Z" := by decide
example : toISOString ⟨-62198755200000,by decide⟩ = "-000001-01-01T00:00:00.000Z" := by decide

def number (word : List Char) : Nat := value 10 (word.map fun c => c.toNat - 48)

/-- The number in front and the text behind the sign that follows it. -/
def cut (width : Nat) (text : List Char) : Nat × List Char := (number (text.take width),text.drop (width + 1))

def readYear (text : List Char) : Int × List Char :=
  match text with
  | '+' :: rest => ((cut 6 rest).1,(cut 6 rest).2)
  | '-' :: rest => (-((cut 6 rest).1 : Int),(cut 6 rest).2)
  | _ => ((cut 4 text).1,(cut 4 text).2)

def readFields (text : List Char) : Fields :=
  let (year,rest) := readYear text
  let (month,rest) := cut 2 rest
  let (date,rest) := cut 2 rest
  let (hours,rest) := cut 2 rest
  let (minutes,rest) := cut 2 rest
  let (seconds,rest) := cut 2 rest
  { year, month, date, hours, minutes, seconds, milliseconds := (cut 3 rest).1 }

def readIso (text : String) : Option Date :=
  let ms := timeOf (readFields text.toList)
  if inRange : -8640000000000000 ≤ ms ∧ ms ≤ 8640000000000000 then
    if toISOString ⟨ms,inRange⟩ = text then some ⟨ms,inRange⟩ else none
  else none

/-- `Date.parse(text)`; none where it is NaN. Of the further forms the language leaves most to the engine. -/
def parse (further : String → Option Date) (text : String) : Option Date := (readIso text).or (further text)

theorem digits_length (width n : Nat) : (digits width n).length = width := by
  induction width generalizing n with
  | zero => rfl
  | succ width ih => rw [digits,List.length_append,ih,List.length_singleton]

theorem digit_toNat : ∀ n < 10, (digit n).toNat = 48 + n := by decide

theorem digit_mem {width n : Nat} {c : Char} (listed : c ∈ digits width n) : ∃ d < 10, c = digit d := by
  induction width generalizing n with
  | zero => cases listed
  | succ width ih =>
    rcases List.mem_append.mp listed with earlier | last
    · exact ih earlier
    · exact ⟨n % 10,Nat.mod_lt _ (by decide),List.mem_singleton.mp last⟩

theorem number_digits {width n : Nat} (short : n < 10 ^ width) : number (digits width n) = n := by
  induction width generalizing n with
  | zero =>
    rw [Nat.pow_zero] at short
    rw [digits,show n = 0 by omega]
    rfl
  | succ width ih =>
    have first := ih (n := n / 10) (by rw [Nat.pow_succ] at short; omega)
    rw [number] at first
    rw [number,digits,List.map_append,List.map_singleton,value_concat,first,digit_toNat _ (Nat.mod_lt _ (by decide))]
    omega

theorem cut_digits {width n : Nat} (short : n < 10 ^ width) (sep : Char) (rest : List Char) :
    cut width (digits width n ++ sep :: rest) = (n,rest) := by
  have length := digits_length width n
  have front : (digits width n ++ sep :: rest).take width = digits width n := List.take_left' length
  have behind : (digits width n ++ sep :: rest).drop (width + 1) = rest := by
    rw [← List.drop_drop,List.drop_left' length]
    rfl
  rw [cut,front,behind,number_digits short]

theorem readYear_plain {c : Char} (noPlus : c ≠ '+') (noMinus : c ≠ '-') (rest : List Char) :
    readYear (c :: rest) = (((cut 4 (c :: rest)).1 : Int),(cut 4 (c :: rest)).2) := by
  unfold readYear
  split
  · rename_i same
    exact absurd (List.cons.inj same).1 noPlus
  · rename_i same
    exact absurd (List.cons.inj same).1 noMinus
  · rfl

theorem readYear_yearText {year : Int} (short : year.natAbs < 1000000) (sep : Char) (rest : List Char) :
    readYear (yearText year ++ sep :: rest) = (year,rest) := by
  unfold yearText
  by_cases plain : 0 ≤ year ∧ year ≤ 9999
  · rw [if_pos plain]
    have four := @cut_digits 4 year.toNat (by omega) sep rest
    have value : ((year.toNat : Nat) : Int) = year := by omega
    cases written : digits 4 year.toNat ++ sep :: rest with
    | nil => simp at written
    | cons c others =>
      have first : c ∈ digits 4 year.toNat := by
        cases front : digits 4 year.toNat with
        | nil =>
          have length := digits_length 4 year.toNat
          rw [front] at length
          cases length
        | cons d more =>
          rw [front,List.cons_append] at written
          rw [(List.cons.inj written).1]
          exact List.mem_cons_self ..
      obtain ⟨d,small,rfl⟩ := digit_mem first
      have code := digit_toNat d small
      have noPlus : digit d ≠ '+' := fun same => by rw [same] at code; simp at code; omega
      have noMinus : digit d ≠ '-' := fun same => by rw [same] at code; simp at code; omega
      rw [written] at four
      rw [readYear_plain noPlus noMinus,four,value]
  · rw [if_neg plain]
    have six := @cut_digits 6 year.natAbs (by omega) sep rest
    by_cases negative : year < 0
    · rw [if_pos negative,List.cons_append,readYear,six]
      simp only [Prod.mk.injEq,and_true]
      omega
    · rw [if_neg negative,List.cons_append,readYear,six]
      simp only [Prod.mk.injEq,and_true]
      omega

theorem readFields_isoText {f : Fields} (bounds : InBounds f) (short : f.year.natAbs < 1000000) :
    readFields (isoText f) = f := by
  obtain ⟨month,date,hours,minutes,seconds,milliseconds⟩ := bounds
  have last : (cut 3 (digits 3 f.milliseconds ++ ['Z'])).1 = f.milliseconds := by
    rw [cut_digits (by omega)]
  simp only [readFields,isoText]
  rw [readYear_yearText short]
  simp only
  rw [cut_digits (by omega)]
  simp only
  rw [cut_digits (by omega)]
  simp only
  rw [cut_digits (by omega)]
  simp only
  rw [cut_digits (by omega)]
  simp only
  rw [cut_digits (by omega)]
  simp only
  rw [last]

theorem readIso_toISOString (t : Date) : readIso (toISOString t) = some t := by
  have fields : readFields (toISOString t).toList = fieldsOf t.ms := by
    rw [toISOString,String.toList_ofList]
    exact readFields_isoText (fieldsOf_inBounds t.ms) (year_range t)
  obtain ⟨ms,inRange⟩ := t
  simp only [readIso,fields,timeOf_fieldsOf]
  rw [dif_pos inRange,if_pos trivial]

theorem parse_toISOString (further : String → Option Date) (t : Date) : parse further (toISOString t) = some t := by
  rw [parse,readIso_toISOString,Option.some_or]
def dateText (f : Fields) : List Char := yearText f.year ++ '-' :: (digits 2 f.month ++ '-' :: digits 2 f.date)
def secondsText (f : Fields) : List Char :=
  dateText f ++ 'T' :: (digits 2 f.hours ++ ':' :: (digits 2 f.minutes ++ ':' :: digits 2 f.seconds))

/-- `new Date(text + 'Z')`, the text of a time to the second: none where the time is out of range. Of the further
    forms the language leaves most to the engine. -/
def readSeconds (further : String → Option Date) (text : String) : Option Date :=
  let f := readFields (text ++ ".000Z").toList
  if fieldsOf (timeOf f) = f ∧ isoText f = (text ++ ".000Z").toList then
    if inRange : -8640000000000000 ≤ timeOf f ∧ timeOf f ≤ 8640000000000000 then some ⟨timeOf f,inRange⟩ else none
  else further (text ++ "Z")

example : readSeconds (fun _ => none) "2024-02-29T23:59:59" = some ⟨1709251199000,by decide⟩ := by decide

def Date.day (t : Date) : Int := t.ms / 86400000

def Date.dayStart (t : Date) : Date := ⟨t.day * 86400000,by
  have inRange := t.inRange
  unfold Date.day
  omega⟩

/-- `toISOString().slice(0,-14)`. -/
def dayText (t : Date) : String := String.ofList (dateText (fieldsOf t.ms))

theorem isoText_seconds {f : Fields} (whole : f.milliseconds = 0) : isoText f = secondsText f ++ ".000Z".toList := by
  have ends : ".000Z".toList = '.' :: (digits 3 0 ++ ['Z']) := by decide
  simp only [isoText,secondsText,dateText,whole,ends,List.append_assoc,List.cons_append]

theorem fieldsOf_day {ms : Int} {time : Nat} (short : time < 86400000) :
    fieldsOf (ms / 86400000 * 86400000 + time) = { fieldsOf ms with
      hours := time / 3600000, minutes := time / 60000 % 60, seconds := time / 1000 % 60, milliseconds := time % 1000 } := by
  have sameDay : (ms / 86400000 * 86400000 + time) / 86400000 = ms / 86400000 := by omega
  have ofDay : ((ms / 86400000 * 86400000 + time) % 86400000).toNat = time := by omega
  simp only [fieldsOf,sameDay,ofDay]

theorem readSeconds_of_day (further : String → Option Date) (t : Date) (time : Nat) (short : time < 86400000)
    (whole : time % 1000 = 0) {text : String} (written : text.toList = secondsText (fieldsOf (t.day * 86400000 + time)))
    (stop : Date) : readSeconds further text = some stop ↔ stop.ms = t.day * 86400000 + time := by
  have sameYear : (fieldsOf (t.day * 86400000 + time)).year = (fieldsOf t.ms).year := by rw [Date.day,fieldsOf_day short]
  have noMs : (fieldsOf (t.day * 86400000 + time)).milliseconds = 0 := by rw [Date.day,fieldsOf_day short,whole]
  have iso : (text ++ ".000Z").toList = isoText (fieldsOf (t.day * 86400000 + time)) := by
    rw [String.toList_append,written,isoText_seconds noMs]
  have fields : readFields (text ++ ".000Z").toList = fieldsOf (t.day * 86400000 + time) := by
    rw [iso]
    exact readFields_isoText (fieldsOf_inBounds _) (sameYear ▸ year_range t)
  have timeIs : timeOf (readFields (text ++ ".000Z").toList) = t.day * 86400000 + time := by rw [fields,timeOf_fieldsOf]
  have written' : fieldsOf (timeOf (readFields (text ++ ".000Z").toList)) = readFields (text ++ ".000Z").toList ∧
      isoText (readFields (text ++ ".000Z").toList) = (text ++ ".000Z").toList := ⟨by rw [timeIs,fields],by rw [fields,iso]⟩
  simp only [readSeconds]
  rw [if_pos written']
  obtain ⟨ms,inRange⟩ := stop
  by_cases within : -8640000000000000 ≤ timeOf (readFields (text ++ ".000Z").toList) ∧
      timeOf (readFields (text ++ ".000Z").toList) ≤ 8640000000000000
  · rw [dif_pos within]
    simp only [Option.some.injEq,Date.mk.injEq]
    omega
  · rw [dif_neg within]
    simp only [reduceCtorEq,false_iff]
    omega

theorem dayText_seconds {t : Date} {time : Nat} (short : time < 86400000) :
    secondsText (fieldsOf (t.day * 86400000 + time)) = (dayText t).toList ++ 'T' :: (digits 2 (time / 3600000) ++
      ':' :: (digits 2 (time / 60000 % 60) ++ ':' :: digits 2 (time / 1000 % 60))) := by
  rw [Date.day,fieldsOf_day short,secondsText,dayText,String.toList_ofList]
  rfl

theorem readSeconds_dayStart (further : String → Option Date) (t : Date) :
    readSeconds further (dayText t ++ "T00:00:00") = some t.dayStart := by
  have begins : "T00:00:00".toList = 'T' :: (digits 2 (0 / 3600000) ++ ':' :: (digits 2 (0 / 60000 % 60) ++
    ':' :: digits 2 (0 / 1000 % 60))) := by decide
  refine (readSeconds_of_day further t 0 (by decide) rfl ?_ t.dayStart).mpr (by simp [Date.dayStart])
  rw [dayText_seconds (by decide),String.toList_append,begins]

theorem readSeconds_dayEnd (further : String → Option Date) (t stop : Date) :
    readSeconds further (dayText t ++ "T23:59:59") = some stop ↔ stop.ms = t.day * 86400000 + 86399000 := by
  have ends : "T23:59:59".toList = 'T' :: (digits 2 (86399000 / 3600000) ++ ':' :: (digits 2 (86399000 / 60000 % 60) ++
    ':' :: digits 2 (86399000 / 1000 % 60))) := by decide
  refine readSeconds_of_day further t 86399000 (by decide) rfl ?_ stop
  rw [dayText_seconds (by decide),String.toList_append,ends]

theorem dayText_eq_iff {t u : Date} : dayText t = dayText u ↔ t.day = u.day := by
  constructor
  · intro same
    have starts := readSeconds_dayStart (fun _ => none) t
    rw [same,readSeconds_dayStart] at starts
    have ms := congrArg Date.ms (Option.some.inj starts)
    simp only [Date.dayStart] at ms
    omega
  · intro same
    have dayFields : ∀ v : Date, dateText (fieldsOf (v.day * 86400000 + (0 : Nat))) = dateText (fieldsOf v.ms) := by
      intro v
      rw [Date.day,fieldsOf_day (by decide)]
      rfl
    rw [dayText,dayText,← dayFields t,← dayFields u,same]

end StellarAlerts.DateTexts
