import Mathlib.Tactic.NormNum

/-!
# Dates, times and their texts

The proleptic Gregorian calendar from year 1 to year 9999, with times in UTC to
the microsecond. The text of a moment leaves out a fraction of zero. Texts still
compare as the moments do, as the sign of the offset comes before the point of a
fraction.
-/

namespace CadPlot.Calendar

/-! ### Numbers and texts that compare alike -/

/-- Two texts of one length compare as two numbers do. -/
structure Ordered (s t : List Char) (m n : Nat) : Prop where
  length : s.length = t.length
  lt : s < t ↔ m < n
  eq : s = t ↔ m = n

section Ordered

variable {s t s' t' : List Char} {m n m' n' k : Nat}

theorem radix_lt_iff (hm : m' < k) (hn : n' < k) :
    m * k + m' < n * k + n' ↔ m < n ∨ m = n ∧ m' < n' := by
  constructor
  · intro h
    rcases Nat.lt_trichotomy m n with hlt | rfl | hgt
    · exact .inl hlt
    · exact .inr ⟨rfl, by omega⟩
    · have hle : (n + 1) * k ≤ m * k := Nat.mul_le_mul_right k hgt
      rw [Nat.succ_mul] at hle
      omega
  · rintro (hlt | ⟨rfl, hlt⟩)
    · have hle : (m + 1) * k ≤ n * k := Nat.mul_le_mul_right k hlt
      rw [Nat.succ_mul] at hle
      omega
    · omega

theorem radix_eq_iff (hm : m' < k) (hn : n' < k) :
    m * k + m' = n * k + n' ↔ m = n ∧ m' = n' := by
  have hlt := radix_lt_iff (m := m) (n := n) hm hn
  have hgt := radix_lt_iff (m := n) (n := m) hn hm
  constructor
  · intro h
    rcases Nat.lt_trichotomy m n with hmn | rfl | hmn
    · have := hlt.2 (.inl hmn)
      omega
    · exact ⟨rfl, by omega⟩
    · have := hgt.2 (.inl hmn)
      omega
  · rintro ⟨rfl, rfl⟩
    rfl

theorem append_lt_append_iff (h : s.length = t.length) :
    s ++ s' < t ++ t' ↔ s < t ∨ s = t ∧ s' < t' := by
  induction s generalizing t with
  | nil =>
    obtain rfl := List.eq_nil_of_length_eq_zero h.symm
    simp
  | cons c s ih =>
    cases t with
    | nil => cases h
    | cons d t =>
      have hlen : s.length = t.length := Nat.succ.inj h
      rw [List.cons_append, List.cons_append, List.cons_lt_cons_iff, ih hlen,
        List.cons_lt_cons_iff, List.cons.injEq]
      constructor
      · rintro (hc | ⟨rfl, hs | ⟨rfl, hs⟩⟩)
        · exact .inl (.inl hc)
        · exact .inl (.inr ⟨rfl, hs⟩)
        · exact .inr ⟨⟨rfl, rfl⟩, hs⟩
      · rintro ((hc | ⟨rfl, hs⟩) | ⟨⟨rfl, rfl⟩, hs⟩)
        · exact .inl hc
        · exact .inr ⟨rfl, .inl hs⟩
        · exact .inr ⟨rfl, .inr ⟨rfl, hs⟩⟩

theorem Ordered.append (h : Ordered s t m n) (h' : Ordered s' t' m' n') (hm : m' < k)
    (hn : n' < k) : Ordered (s ++ s') (t ++ t') (m * k + m') (n * k + n') where
  length := by rw [List.length_append, List.length_append, h.length, h'.length]
  lt := by rw [append_lt_append_iff h.length, radix_lt_iff hm hn, h.lt, h.eq, h'.lt]
  eq := by
    rw [radix_eq_iff hm hn, ← h.eq, ← h'.eq]
    constructor
    · exact fun heq => List.append_inj heq h.length
    · rintro ⟨rfl, rfl⟩
      rfl

theorem Ordered.append_const (h : Ordered s t m n) (c : List Char) :
    Ordered (s ++ c) (t ++ c) m n where
  length := by rw [List.length_append, List.length_append, h.length]
  lt := by
    rw [append_lt_append_iff h.length, h.lt]
    have hirr : ¬c < c := List.lt_irrefl c
    constructor
    · rintro (hlt | ⟨_, hc⟩)
      · exact hlt
      · exact absurd hc hirr
    · exact .inl
  eq := by rw [List.append_left_inj, h.eq]

def digitChar (n : Nat) : Char := Char.ofNat (48 + n)

theorem digitChar_ordered (hm : m < 10) (hn : n < 10) :
    Ordered [digitChar m] [digitChar n] m n := by
  have hall : ∀ m < 10, ∀ n < 10, (digitChar m < digitChar n ↔ m < n) ∧
      (digitChar m = digitChar n ↔ m = n) := by decide
  obtain ⟨hlt, heq⟩ := hall m hm n hn
  refine ⟨rfl, ?_, ?_⟩
  · rw [List.cons_lt_cons_iff, hlt]
    simp
  · rw [List.cons.injEq, heq]
    simp

/-- A number with leading zeros. -/
def digits : Nat → Nat → List Char
  | 0, _ => []
  | w + 1, n => digits w (n / 10) ++ [digitChar (n % 10)]

theorem digits_ordered {w : Nat} (hm : m < 10 ^ w) (hn : n < 10 ^ w) :
    Ordered (digits w m) (digits w n) m n := by
  induction w generalizing m n with
  | zero =>
    obtain rfl : m = 0 := Nat.lt_one_iff.1 hm
    obtain rfl : n = 0 := Nat.lt_one_iff.1 hn
    exact ⟨rfl, by simp, by simp⟩
  | succ w ih =>
    have hm' : m / 10 < 10 ^ w := Nat.div_lt_of_lt_mul (by rwa [Nat.pow_succ, Nat.mul_comm] at hm)
    have hn' : n / 10 < 10 ^ w := Nat.div_lt_of_lt_mul (by rwa [Nat.pow_succ, Nat.mul_comm] at hn)
    have h := (ih hm' hn').append
      (digitChar_ordered (Nat.mod_lt m (by decide)) (Nat.mod_lt n (by decide)))
      (Nat.mod_lt m (by decide)) (Nat.mod_lt n (by decide))
    rwa [Nat.div_add_mod', Nat.div_add_mod'] at h

end Ordered

/-! ### The calendar -/

def isLeap (year : Nat) : Bool := decide (year % 4 = 0 ∧ (year % 100 ≠ 0 ∨ year % 400 = 0))

def daysInMonth (leap : Bool) : Nat → Nat
  | 2 => if leap then 29 else 28
  | 4 | 6 | 9 | 11 => 30
  | _ => 31

def daysBeforeYear (year : Nat) : Nat :=
  (year - 1) * 365 + (year - 1) / 4 - (year - 1) / 100 + (year - 1) / 400

def daysBeforeMonth (leap : Bool) : Nat → Nat
  | 0 | 1 => 0
  | month + 1 => daysBeforeMonth leap month + daysInMonth leap month

/-- A moment in UTC. -/
structure DateTime where
  year : Nat
  month : Nat
  day : Nat
  hour : Nat
  minute : Nat
  second : Nat
  microsecond : Nat
  years : 1 ≤ year ∧ year ≤ 9999
  months : 1 ≤ month ∧ month ≤ 12
  days : 1 ≤ day ∧ day ≤ daysInMonth (isLeap year) month
  time : hour < 24 ∧ minute < 60 ∧ second < 60 ∧ microsecond < 1000000
  deriving DecidableEq

namespace DateTime

/-- `toordinal` -/
def ordinal (d : DateTime) : Nat :=
  daysBeforeYear d.year + daysBeforeMonth (isLeap d.year) d.month + d.day

def seconds (d : DateTime) : Nat := ((d.ordinal * 24 + d.hour) * 60 + d.minute) * 60 + d.second

def micros (d : DateTime) : Nat := d.seconds * 1000000 + d.microsecond

/-- Microseconds since the first second of 1970. -/
def instant (d : DateTime) : Int := d.micros - 719163 * 86400 * 1000000

/-- `isoformat`, up to the fraction of the second -/
def head (d : DateTime) : List Char :=
  digits 4 d.year ++ ['-'] ++ digits 2 d.month ++ ['-'] ++ digits 2 d.day ++ ['T'] ++
    digits 2 d.hour ++ [':'] ++ digits 2 d.minute ++ [':'] ++ digits 2 d.second

/-- `isoformat` -/
def isoformat (d : DateTime) : List Char :=
  if d.microsecond = 0 then d.head ++ "+00:00".toList
  else d.head ++ '.' :: (digits 6 d.microsecond ++ "+00:00".toList)

/-- The text of a moment with the letter for UTC. -/
def zulu (d : DateTime) : List Char :=
  (if d.microsecond = 0 then d.head else d.head ++ '.' :: digits 6 d.microsecond) ++ ['Z']

end DateTime

/-! ### The order of moments -/

theorem daysInMonth_le (leap : Bool) (month : Nat) : daysInMonth leap month ≤ 31 := by
  unfold daysInMonth
  cases leap <;> split <;> simp

/-- The days of a month end before the next month begins. -/
theorem daysBeforeMonth_le (leap : Bool) {month later : Nat} (hmonth : 1 ≤ month)
    (h : month < later) :
    daysBeforeMonth leap month + daysInMonth leap month ≤ daysBeforeMonth leap later := by
  induction later with
  | zero => omega
  | succ later ih =>
    have hlater : daysBeforeMonth leap (later + 1) =
        daysBeforeMonth leap later + daysInMonth leap later := by
      cases later with
      | zero => omega
      | succ later => rfl
    rcases Nat.lt_or_eq_of_le (Nat.le_of_lt_succ h) with hlt | rfl
    · have := ih hlt
      omega
    · exact Nat.le_of_eq hlater.symm

/-- A quotient grows by one at every multiple. -/
theorem succ_div (n k : Nat) : (n + 1) / k = n / k + if (n + 1) % k = 0 then 1 else 0 := by
  rw [Nat.succ_div]
  exact congrArg _ (if_congr (Nat.dvd_iff_mod_eq_zero ..) rfl rfl)

theorem daysBeforeYear_succ {year : Nat} (h : 1 ≤ year) :
    daysBeforeYear (year + 1) = daysBeforeYear year + daysBeforeMonth (isLeap year) 13 := by
  obtain ⟨n, rfl⟩ := Nat.exists_eq_add_of_le' h
  have hquot : n / 100 ≤ n / 4 := Nat.div_le_div_left (by decide) (by decide)
  have h100 : (n + 1) % 100 = 0 → (n + 1) % 4 = 0 := by omega
  have h400 : (n + 1) % 400 = 0 → (n + 1) % 100 = 0 := by omega
  unfold daysBeforeYear
  rw [Nat.add_sub_cancel, Nat.add_sub_cancel, succ_div n 4, succ_div n 100, succ_div n 400]
  generalize n / 4 = q4 at hquot
  generalize n / 100 = q100 at hquot
  generalize n / 400 = q400
  by_cases c4 : (n + 1) % 4 = 0
  · by_cases c100 : (n + 1) % 100 = 0
    · by_cases c400 : (n + 1) % 400 = 0
      · have hleap : isLeap (n + 1) = true := decide_eq_true ⟨c4, .inr c400⟩
        rw [hleap, if_pos c4, if_pos c100, if_pos c400, show daysBeforeMonth true 13 = 366 from rfl]
        omega
      · have hleap : isLeap (n + 1) = false := by simp [isLeap, c100, c400]
        rw [hleap, if_pos c4, if_pos c100, if_neg c400, show daysBeforeMonth false 13 = 365 from rfl]
        omega
    · have c400 : ¬(n + 1) % 400 = 0 := fun h => c100 (h400 h)
      have hleap : isLeap (n + 1) = true := decide_eq_true ⟨c4, .inl c100⟩
      rw [hleap, if_pos c4, if_neg c100, if_neg c400, show daysBeforeMonth true 13 = 366 from rfl]
      omega
  · have c100 : ¬(n + 1) % 100 = 0 := fun h => c4 (h100 h)
    have c400 : ¬(n + 1) % 400 = 0 := fun h => c100 (h400 h)
    have hleap : isLeap (n + 1) = false := by simp [isLeap, c4]
    rw [hleap, if_neg c4, if_neg c100, if_neg c400, show daysBeforeMonth false 13 = 365 from rfl]
    omega

theorem daysBeforeYear_le {year later : Nat} (hyear : 1 ≤ year) (h : year < later) :
    daysBeforeYear year + daysBeforeMonth (isLeap year) 13 ≤ daysBeforeYear later := by
  induction later with
  | zero => omega
  | succ later ih =>
    rcases Nat.lt_or_eq_of_le (Nat.le_of_lt_succ h) with hlt | rfl
    · have hsucc := @daysBeforeYear_succ later (by omega)
      have := ih hlt
      omega
    · exact Nat.le_of_eq (daysBeforeYear_succ hyear).symm

/-- The days of a date, in the order of their years, months and days. -/
theorem ordinal_lt {y m d y' m' d' : Nat} (hy : 1 ≤ y) (hm : 1 ≤ m ∧ m ≤ 12)
    (hd : 1 ≤ d ∧ d ≤ daysInMonth (isLeap y) m) (hm' : 1 ≤ m') (hd' : 1 ≤ d')
    (h : (y < y' ∨ y = y' ∧ m < m') ∨ (y = y' ∧ m = m') ∧ d < d') :
    daysBeforeYear y + daysBeforeMonth (isLeap y) m + d <
      daysBeforeYear y' + daysBeforeMonth (isLeap y') m' + d' := by
  rcases h with (hlt | ⟨rfl, hlt⟩) | ⟨⟨rfl, rfl⟩, hlt⟩
  · have hyear := daysBeforeYear_le hy hlt
    have hmonth : daysBeforeMonth (isLeap y) m + daysInMonth (isLeap y) m ≤
        daysBeforeMonth (isLeap y) 13 := daysBeforeMonth_le _ hm.1 (by omega)
    omega
  · have hmonth := daysBeforeMonth_le (isLeap y) hm.1 hlt
    omega
  · omega

/-- The number whose decimal digits are those of the date. -/
def dateCode (d : DateTime) : Nat := (d.year * 100 + d.month) * 100 + d.day

section Order

variable {a b : DateTime}

theorem day_lt (d : DateTime) : d.day < 100 := by
  have h := d.days.2
  have hmonth := daysInMonth_le (isLeap d.year) d.month
  omega

theorem dateCode_lt_iff : dateCode a < dateCode b ↔
    (a.year < b.year ∨ a.year = b.year ∧ a.month < b.month) ∨
      (a.year = b.year ∧ a.month = b.month) ∧ a.day < b.day := by
  have ha : a.month < 100 := Nat.lt_of_le_of_lt a.months.2 (by decide)
  have hb : b.month < 100 := Nat.lt_of_le_of_lt b.months.2 (by decide)
  rw [dateCode, dateCode, radix_lt_iff (day_lt a) (day_lt b), radix_lt_iff ha hb,
    radix_eq_iff ha hb]

theorem dateCode_eq_iff : dateCode a = dateCode b ↔
    (a.year = b.year ∧ a.month = b.month) ∧ a.day = b.day := by
  have ha : a.month < 100 := Nat.lt_of_le_of_lt a.months.2 (by decide)
  have hb : b.month < 100 := Nat.lt_of_le_of_lt b.months.2 (by decide)
  rw [dateCode, dateCode, radix_eq_iff (day_lt a) (day_lt b), radix_eq_iff ha hb]

theorem ordinal_lt_of_dateCode (h : dateCode a < dateCode b) : a.ordinal < b.ordinal :=
  ordinal_lt a.years.1 a.months a.days b.months.1 b.days.1 (dateCode_lt_iff.1 h)

theorem ordinal_eq_of_dateCode (h : dateCode a = dateCode b) : a.ordinal = b.ordinal := by
  obtain ⟨⟨hyear, hmonth⟩, hday⟩ := dateCode_eq_iff.1 h
  rw [DateTime.ordinal, DateTime.ordinal, hyear, hmonth, hday]

theorem ordinal_lt_iff : a.ordinal < b.ordinal ↔ dateCode a < dateCode b := by
  refine ⟨fun h => ?_, ordinal_lt_of_dateCode⟩
  rcases Nat.lt_trichotomy (dateCode a) (dateCode b) with hlt | heq | hgt
  · exact hlt
  · exact absurd (ordinal_eq_of_dateCode heq) (Nat.ne_of_lt h)
  · exact absurd (ordinal_lt_of_dateCode hgt) (Nat.lt_asymm h)

theorem ordinal_eq_iff : a.ordinal = b.ordinal ↔ dateCode a = dateCode b := by
  refine ⟨fun h => ?_, ordinal_eq_of_dateCode⟩
  rcases Nat.lt_trichotomy (dateCode a) (dateCode b) with hlt | heq | hgt
  · exact absurd h (Nat.ne_of_lt (ordinal_lt_of_dateCode hlt))
  · exact heq
  · exact absurd h (Nat.ne_of_gt (ordinal_lt_of_dateCode hgt))

/-- The date and time up to the second, as the number of its decimal digits. -/
def headCode (d : DateTime) : Nat := ((dateCode d * 100 + d.hour) * 100 + d.minute) * 100 + d.second

theorem headCode_lt_iff : headCode a < headCode b ↔ a.seconds < b.seconds := by
  have hour (d : DateTime) : d.hour < 24 ∧ d.hour < 100 := ⟨d.time.1, by have := d.time.1; omega⟩
  have minute (d : DateTime) : d.minute < 60 ∧ d.minute < 100 :=
    ⟨d.time.2.1, by have := d.time.2.1; omega⟩
  have second (d : DateTime) : d.second < 60 ∧ d.second < 100 :=
    ⟨d.time.2.2.1, by have := d.time.2.2.1; omega⟩
  rw [headCode, headCode, radix_lt_iff (second a).2 (second b).2,
    radix_lt_iff (minute a).2 (minute b).2, radix_eq_iff (minute a).2 (minute b).2,
    radix_lt_iff (hour a).2 (hour b).2, radix_eq_iff (hour a).2 (hour b).2, DateTime.seconds,
    DateTime.seconds, radix_lt_iff (second a).1 (second b).1,
    radix_lt_iff (minute a).1 (minute b).1, radix_eq_iff (minute a).1 (minute b).1,
    radix_lt_iff (hour a).1 (hour b).1, radix_eq_iff (hour a).1 (hour b).1, ordinal_lt_iff,
    ordinal_eq_iff]

theorem headCode_eq_iff : headCode a = headCode b ↔ a.seconds = b.seconds := by
  have hlt := headCode_lt_iff (a := a) (b := b)
  have hgt := headCode_lt_iff (a := b) (b := a)
  omega

theorem head_ordered (a b : DateTime) : Ordered a.head b.head (headCode a) (headCode b) := by
  have two (d : DateTime) : d.month < 10 ^ 2 ∧ d.day < 10 ^ 2 ∧ d.hour < 10 ^ 2 ∧
      d.minute < 10 ^ 2 ∧ d.second < 10 ^ 2 := by
    have hmonth := d.months.2
    have hday := day_lt d
    have htime := d.time
    norm_num
    omega
  have four (d : DateTime) : d.year < 10 ^ 4 := by
    have hyear := d.years.2
    norm_num
    omega
  obtain ⟨hmonth, hday, hhour, hminute, hsecond⟩ := two a
  obtain ⟨hmonth', hday', hhour', hminute', hsecond'⟩ := two b
  have h := (digits_ordered (four a) (four b)).append_const ['-']
  have h := (h.append (digits_ordered hmonth hmonth') hmonth hmonth').append_const ['-']
  have h := (h.append (digits_ordered hday hday') hday hday').append_const ['T']
  have h := (h.append (digits_ordered hhour hhour') hhour hhour').append_const [':']
  have h := (h.append (digits_ordered hminute hminute') hminute hminute').append_const [':']
  exact h.append (digits_ordered hsecond hsecond') hsecond hsecond'

/-- What follows the second. -/
def DateTime.fraction (d : DateTime) : List Char :=
  if d.microsecond = 0 then "+00:00".toList
  else '.' :: (digits 6 d.microsecond ++ "+00:00".toList)

theorem fraction_lt_iff : a.fraction < b.fraction ↔ a.microsecond < b.microsecond := by
  have six (d : DateTime) : d.microsecond < 10 ^ 6 := by
    have htime := d.time.2.2.2
    norm_num
    omega
  have hplus : "+00:00".toList = '+' :: "00:00".toList := by decide
  unfold DateTime.fraction
  split_ifs with ha hb hb
  · rw [ha, hb]
    simp
  · rw [hplus, List.cons_lt_cons_iff]
    have hdot : '+' < '.' := by decide
    simp only [hdot, true_or, true_iff]
    omega
  · rw [hplus, List.cons_lt_cons_iff]
    have hdot : ¬( '.' < '+') := by decide
    have hne : '.' ≠ '+' := by decide
    simp only [hdot, hne, false_and, or_self, false_iff]
    omega
  · rw [List.cons_lt_cons_iff, ((digits_ordered (six a) (six b)).append_const _).lt]
    simp

/-- Timestamps compare as texts as the moments do. -/
theorem isoformat_lt_iff : a.isoformat < b.isoformat ↔ a.micros < b.micros := by
  have hiso (d : DateTime) : d.isoformat = d.head ++ d.fraction := by
    unfold DateTime.isoformat DateTime.fraction
    split <;> rfl
  have hhead := head_ordered a b
  rw [hiso, hiso, append_lt_append_iff hhead.length, hhead.lt, hhead.eq, fraction_lt_iff,
    headCode_lt_iff, headCode_eq_iff, DateTime.micros, DateTime.micros,
    radix_lt_iff a.time.2.2.2 b.time.2.2.2]

end Order

/-- A text with the letter for UTC is that of one moment. -/
theorem micros_eq_of_zulu {a b : DateTime} (h : a.zulu = b.zulu) : a.micros = b.micros := by
  have hbody := List.append_cancel_right h
  have hform : ∀ d : DateTime, d.isoformat =
      (if d.microsecond = 0 then d.head else d.head ++ '.' :: digits 6 d.microsecond) ++
        "+00:00".toList := by
    intro d
    unfold DateTime.isoformat
    split <;> simp
  have hiso : a.isoformat = b.isoformat := by rw [hform a, hform b, hbody]
  have hab : ¬a.micros < b.micros := by
    rw [← isoformat_lt_iff, hiso]
    exact List.lt_irrefl _
  have hba : ¬b.micros < a.micros := by
    rw [← isoformat_lt_iff, hiso]
    exact List.lt_irrefl _
  omega

theorem zulu_injective {a b : DateTime} (h : a.zulu = b.zulu) : a = b := by
  obtain ⟨hseconds, hmicrosecond⟩ :=
    (radix_eq_iff a.time.2.2.2 b.time.2.2.2).1 (micros_eq_of_zulu h)
  have hhead := headCode_eq_iff.2 hseconds
  have hdays : a.day < 100 ∧ b.day < 100 := ⟨day_lt a, day_lt b⟩
  have hmonths : a.month ≤ 12 ∧ b.month ≤ 12 := ⟨a.months.2, b.months.2⟩
  have htime := a.time
  have htime' := b.time
  simp only [headCode, dateCode] at hhead
  have hfields : a.year = b.year ∧ a.month = b.month ∧ a.day = b.day ∧ a.hour = b.hour ∧
      a.minute = b.minute ∧ a.second = b.second := by omega
  cases a
  cases b
  simp only [DateTime.mk.injEq]
  exact ⟨hfields.1, hfields.2.1, hfields.2.2.1, hfields.2.2.2.1, hfields.2.2.2.2.1,
    hfields.2.2.2.2.2, hmicrosecond⟩

end CadPlot.Calendar
