/-
  EncodedQuery.Proofs.Instant.Stored
  ──────────────────────────────────
  **STAMPS ARE READ BACK.**

  The stored form of a stamp has its year in four digits, keeps the fraction of
  a second, and ends with its offset where there is one.  The day in front is
  found by its length, the offset by its sign, and nothing of the stamp is lost.

  Main result: `read_iso`.
-/
import EncodedQuery.Instant.Stored
import EncodedQuery.Proofs.Date.Ordinal
import EncodedQuery.Proofs.Text.Numeral
import EncodedQuery.Proofs.Text.Pieces

namespace EncodedQuery.Stamp

/-! ## §1. Numbers. -/

/-- A padded numeral is read up to its width, whatever follows it. -/
theorem fixedDigits?_zeroPadded {width n : Nat} (rest : Text) (h : n < 10 ^ (width + 1)) :
    fixedDigits? (width + 1) (Text.zeroPadded (width + 1) (Text.ofNat n) ++ rest) =
      some (n, rest) := by
  have hlen := Text.length_zeroPadded h
  have hdigits : (Text.zeroPadded (width + 1) (Text.ofNat n)).all Text.isAsciiDigit = true :=
    List.all_eq_true.mpr (Text.isAsciiDigit_of_mem_zeroPadded _ n)
  have hvalue := Text.digitsValue_zeroPadded (width + 1) n
  generalize Text.zeroPadded (width + 1) (Text.ofNat n) = ds at hlen hdigits hvalue
  have htake : (ds ++ rest).take (width + 1) = ds := by rw [← hlen, List.take_left]
  have hdrop : (ds ++ rest).drop (width + 1) = rest := by rw [← hlen, List.drop_left]
  simp only [fixedDigits?, htake, hdrop, hlen, hdigits, hvalue, and_self, if_true]

theorem fixedDigits?_twoDigits {n : Nat} (rest : Text) (h : n < 100) :
    fixedDigits? 2 (Text.twoDigits n ++ rest) = some (n, rest) :=
  fixedDigits?_zeroPadded rest h

theorem skipMark?_mark (mark rest : Text) : skipMark? true mark (mark ++ rest) = some rest :=
  Text.dropHead?_eq_some_iff.mpr rfl

/-! ## §2. Days. -/

/-- The stored form of a day, digit by digit. -/
theorem exists_dateIso_eq (d : Date) : ∃ a b c e f g h i : Nat,
    (a < 10 ∧ b < 10 ∧ c < 10 ∧ e < 10 ∧ f < 10 ∧ g < 10 ∧ h < 10 ∧ i < 10) ∧
      d.iso = [Text.digit a, Text.digit b, Text.digit c, Text.digit e, .char '-', Text.digit f,
        Text.digit g, .char '-', Text.digit h, Text.digit i] := by
  have hyear := d.isDay.1.2
  have hmonth := d.isDay.2.1.2
  have hday := d.day_le
  refine ⟨d.year / 1000, d.year / 100 % 10, d.year / 10 % 10, d.year % 10, d.month / 10,
    d.month % 10, d.day / 10, d.day % 10, by omega, ?_⟩
  rw [Date.iso, Text.zeroPadded_four (by omega), Text.twoDigits_eq (by omega),
    Text.twoDigits_eq (by omega)]
  rfl

/-- A stored day is as long as it says. -/
theorem dayLength_iso (d : Date) {c : CodePoint} (rest : Text) :
    dayLength (d.iso ++ c :: rest) = 10 := by
  obtain ⟨a, b, c, e, f, g, h, i, ⟨-, -, -, -, hf, -⟩, hiso⟩ := exists_dateIso_eq d
  have hweek : ∀ f < 10, Text.digit f ≠ .char 'W' := by decide
  simp [dayLength, hiso, hweek f hf]

theorem length_dateIso (d : Date) : d.iso.length = 10 := by
  obtain ⟨a, b, c, e, f, g, h, i, -, hiso⟩ := exists_dateIso_eq d
  rw [hiso]
  rfl

/-- **A stored day is read back.** -/
theorem day?_iso (d : Date) : day? d.iso = some (d.year, d.month, d.day) := by
  have hyear := d.isDay.1.2
  have hmonth := d.isDay.2.1.2
  have hday := d.day_le
  have hform : d.iso = Text.zeroPadded 4 (Text.ofNat d.year) ++ .char '-' ::
      (Text.twoDigits d.month ++ .char '-' :: (Text.twoDigits d.day ++ [])) := by
    simp [Date.iso]
  have hmark : ∀ rest, skipMark? true "-" (.char '-' :: rest) = some rest := skipMark?_mark "-"
  obtain ⟨c, rest, hmonths, hc⟩ : ∃ c rest, Text.twoDigits d.month = c :: rest ∧ c ≠ .char 'W' := by
    have hweek : ∀ f < 10, Text.digit f ≠ .char 'W' := by decide
    exact ⟨_, _, Text.twoDigits_eq (by omega), hweek _ (by omega)⟩
  rw [hform, day?, fixedDigits?_zeroPadded _ (show d.year < 10 ^ (3 + 1) by omega)]
  simp only [Option.bind_eq_bind, Option.bind_some, List.head?_cons, decide_true, hmark]
  split
  next hword =>
    -- a month is no week
    rw [hmonths] at hword
    exact absurd (List.cons.inj hword).1 hc
  next =>
    rw [fixedDigits?_twoDigits _ (by omega)]
    simp only [Option.bind_some, hmark]
    rw [fixedDigits?_twoDigits _ (by omega)]
    rfl

/-! ## §3. Times. -/

/-- The last number of a time may carry a fraction of a second. -/
theorem clockNumbers?_last {n x u : Nat} (marked : Bool) (hx : x < 100) (hu : u < 1000000) :
    clockNumbers? marked (n + 1) (Text.twoDigits x ++ Instant.fractionOf u)
      = some ([x], u, []) := by
  rw [clockNumbers?, fixedDigits?_twoDigits _ hx, Instant.fractionOf]
  by_cases hzero : u = 0
  · simp [hzero]
  have hdigits := fixedDigits?_zeroPadded [] (show u < 10 ^ (5 + 1) by omega)
  have hlen := Text.length_zeroPadded (show u < 10 ^ (5 + 1) by omega)
  rw [List.append_nil] at hdigits
  obtain ⟨c, cs, hcons⟩ := List.exists_cons_of_length_eq_add_one hlen
  rw [if_neg hzero]
  simp only [Option.bind_eq_bind, Option.bind_some, hcons]
  show (fraction? (c :: cs)).bind _ = _
  rw [← hcons, fraction?, hlen]
  simp only [show min 6 (5 + 1) = 5 + 1 from rfl, hdigits, Option.bind_eq_bind, Option.bind_some]
  simp [Number.tenTo]

/-- A number with a colon behind it is followed by another one. -/
theorem clockNumbers?_mark {n x : Nat} {c : CodePoint} {rest : Text} (hx : x < 100) :
    clockNumbers? true (n + 1) (Text.twoDigits x ++ (.char ':' :: c :: rest)) =
      (clockNumbers? true n (c :: rest)).map (fun r => (x :: r.1, r.2)) := by
  have hskip : skipMark? true ":" (.char ':' :: c :: rest) = some (c :: rest) :=
    skipMark?_mark ":" (c :: rest)
  rw [clockNumbers?, fixedDigits?_twoDigits _ hx]
  simp only [Option.bind_eq_bind, Option.bind_some]
  rw [if_neg (by decide), hskip, Option.bind_some]
  cases clockNumbers? true n (c :: rest) <;> rfl

theorem exists_twoDigits_append {x : Nat} (hx : x < 100) (rest : Text) :
    ∃ c more, Text.twoDigits x ++ rest = c :: more := by
  rw [Text.twoDigits_eq hx]
  exact ⟨_, _, rfl⟩

theorem getElem?_two_twoDigits {x : Nat} (hx : x < 100) (rest : Text) :
    (Text.twoDigits x ++ rest)[2]? = rest.head? := by
  rw [Text.twoDigits_eq hx]
  cases rest <;> rfl

/-- Hours and minutes are a time. -/
theorem clock?_minutes {h m : Nat} (hh : h < 100) (hm : m < 100) :
    clock? (Text.twoDigits h ++ (.char ':' :: Text.twoDigits m)) = some ((h, m, 0, 0), []) := by
  obtain ⟨c, rest, hcons⟩ := exists_twoDigits_append hm []
  have hlast := clockNumbers?_last (n := 1) (u := 0) true hm (by decide)
  rw [show Instant.fractionOf 0 = [] from rfl, hcons] at hlast
  rw [List.append_nil] at hcons
  rw [clock?, getElem?_two_twoDigits hh, hcons]
  simp only [List.head?_cons, decide_true]
  rw [clockNumbers?_mark hh, hlast]
  rfl

/-- So are hours, minutes and seconds with their fraction. -/
theorem clock?_seconds {h m s u : Nat} (hh : h < 100) (hm : m < 100) (hs : s < 100)
    (hu : u < 1000000) :
    clock? (Text.twoDigits h ++ (.char ':' :: (Text.twoDigits m ++ (.char ':' ::
      (Text.twoDigits s ++ Instant.fractionOf u))))) = some ((h, m, s, u), []) := by
  have hlast := clockNumbers?_last (n := 0) true hs hu
  obtain ⟨c, rest, hcons⟩ := exists_twoDigits_append hs (Instant.fractionOf u)
  obtain ⟨c', rest', hcons'⟩ := exists_twoDigits_append hm (.char ':' :: c :: rest)
  have hminutes : clockNumbers? true 2 (Text.twoDigits m ++ (.char ':' :: c :: rest)) =
      (clockNumbers? true 1 (c :: rest)).map (fun r => (m :: r.1, r.2)) := clockNumbers?_mark hm
  rw [hcons] at hlast
  rw [hlast, hcons'] at hminutes
  rw [clock?, getElem?_two_twoDigits hh, hcons, hcons']
  simp only [List.head?_cons, decide_true]
  rw [clockNumbers?_mark hh, hminutes]
  rfl

/-- A character of a time of day. -/
def isClockChar (c : CodePoint) : Bool := Text.isAsciiDigit c || c = ':' || c = '.'

theorem isClockChar_of_mem_twoDigits (n : Nat) : ∀ c ∈ Text.twoDigits n, isClockChar c = true :=
  fun c hc => by rw [isClockChar, Text.isAsciiDigit_of_mem_zeroPadded 2 n c hc]; rfl

theorem isClockChar_of_mem_fractionOf (u : Nat) :
    ∀ c ∈ Instant.fractionOf u, isClockChar c = true := by
  unfold Instant.fractionOf
  split
  · nofun
  · intro c hc
    obtain hpoint | hdigit := List.mem_append.mp hc
    · rw [List.mem_singleton.mp hpoint]
      decide
    · rw [isClockChar, Text.isAsciiDigit_of_mem_zeroPadded 6 u c hdigit]
      rfl

/-- Nothing follows a time that is complete. -/
theorem zone?_sign {behind : Bool} {h m s u : Nat} {t : Text}
    (ht : clock? t = some ((h, m, s, u), [])) :
    zone? ((if behind then .char '-' else .char '+') :: t) =
      some (some (offsetMicros behind h m s u)) := by
  cases behind <;> simp [zone?, ht, isEnd]

/-- The parts of a length of time are put together again. -/
theorem offsetMicros_eq {n : Nat} (behind : Bool) (h : n = 0 ∨ 1000000 ≤ n) :
    offsetMicros behind (n / 1000000 / 3600) (n / 1000000 / 60 % 60) (n / 1000000 % 60)
      (n % 1000000) = if behind then -(n : Int) else n := by
  have hseconds : n / 1000000 / 3600 * 3600 + n / 1000000 / 60 % 60 * 60 + n / 1000000 % 60 =
      n / 1000000 := by omega
  rw [offsetMicros, hseconds]
  by_cases hzero : n / 1000000 = 0
  · have hnone : n = 0 := by omega
    simp [hnone]
  · rw [if_neg hzero, Nat.div_add_mod' n 1000000]

/-- **A stored offset is read back**, and after its sign it has the characters of a time. -/
theorem exists_offsetIso_eq (o : Offset) : ∃ sign t, o.iso = sign :: t ∧
    isZoneMark sign = true ∧ zone? o.iso = some (some o.micros) := by
  obtain ⟨hday, hsecond⟩ := o.isOffset
  have hsize : (if decide (o.micros < 0) then -(o.micros.natAbs : Int) else o.micros.natAbs) =
      o.micros := by
    by_cases hneg : o.micros < 0
    · simp only [hneg, decide_true, if_true]
      omega
    · simp only [hneg, decide_false, Bool.false_eq_true, if_false]
      omega
  have hparts := (offsetMicros_eq (decide (o.micros < 0)) (n := o.micros.natAbs) (by omega)).trans
    hsize
  have hiso : o.iso = (if decide (o.micros < 0) then .char '-' else .char '+') ::
      (Text.twoDigits (o.micros.natAbs / 1000000 / 3600) ++
        (.char ':' :: (Text.twoDigits (o.micros.natAbs / 1000000 / 60 % 60) ++
          if o.micros.natAbs % 60000000 = 0 then []
          else .char ':' :: (Text.twoDigits (o.micros.natAbs / 1000000 % 60) ++
            Instant.fractionOf (o.micros.natAbs % 1000000))))) := by
    by_cases hneg : o.micros < 0 <;> simp [Offset.iso, hneg]
  have hmark : isZoneMark (if decide (o.micros < 0) then .char '-' else .char '+') = true := by
    split <;> decide
  refine ⟨_, _, hiso, hmark, ?_⟩
  rw [hiso]
  refine (zone?_sign ?_).trans (congrArg (fun micros => some (some micros)) hparts)
  by_cases hwhole : o.micros.natAbs % 60000000 = 0
  · have hnone : o.micros.natAbs / 1000000 % 60 = 0 ∧ o.micros.natAbs % 1000000 = 0 := by omega
    rw [if_pos hwhole, hnone.1, hnone.2, List.append_nil]
    exact clock?_minutes (by omega) (by omega)
  · rw [if_neg hwhole]
    exact clock?_seconds (by omega) (by omega) (by omega) (Nat.mod_lt _ (by decide))

/-- **A stored time of day is read back**, with the offset behind it. -/
theorem time?_iso (s : Stamp) :
    time? (s.clock.clockTime ++ (Instant.fractionOf s.clock.micro ++
      (s.offset.map Offset.iso).getD [])) =
      some ((s.clock.hour, s.clock.minute, s.clock.second, s.clock.micro),
        s.offset.map Offset.micros) := by
  obtain ⟨hhour, hminute, hsecond, hmicro⟩ := s.clock.isTime
  have hclock := clock?_seconds (show s.clock.hour < 100 by omega)
    (show s.clock.minute < 100 by omega) (show s.clock.second < 100 by omega) hmicro
  have hform : s.clock.clockTime ++ Instant.fractionOf s.clock.micro =
      Text.twoDigits s.clock.hour ++ (.char ':' :: (Text.twoDigits s.clock.minute ++ (.char ':' ::
        (Text.twoDigits s.clock.second ++ Instant.fractionOf s.clock.micro)))) := by
    simp [Instant.clockTime]
  have hcolon : isClockChar ':' = true := by decide
  have hchars : ∀ c ∈ s.clock.clockTime ++ Instant.fractionOf s.clock.micro,
      isClockChar c = true := by
    rw [hform]
    simp only [List.forall_mem_append, List.forall_mem_cons]
    exact ⟨isClockChar_of_mem_twoDigits _, hcolon, isClockChar_of_mem_twoDigits _, hcolon,
      isClockChar_of_mem_twoDigits _, isClockChar_of_mem_fractionOf _⟩
  rw [← hform] at hclock
  rw [← List.append_assoc]
  generalize s.clock.clockTime ++ Instant.fractionOf s.clock.micro = front at hclock hchars
  have hnone : ∀ c ∈ front, (!isZoneMark c) = true := fun c hc => by
    have hother : ∀ mark : CodePoint, isClockChar mark = false → c ≠ mark := by
      rintro _ hmark rfl
      rw [hchars c hc] at hmark
      cases hmark
    simp [isZoneMark, hother '+' (by decide), hother '-' (by decide), hother 'Z' (by decide)]
  -- the first mark is that of the offset
  have hsplit : ∀ zone : Text, zone.head?.all isZoneMark = true →
      (front ++ zone).takeWhile (fun c => !isZoneMark c) = front ∧
        (front ++ zone).dropWhile (fun c => !isZoneMark c) = zone := by
    intro zone hzone
    rw [List.takeWhile_append_of_pos hnone, List.dropWhile_append_of_pos hnone]
    cases zone with
    | nil => exact ⟨List.append_nil front, rfl⟩
    | cons mark t =>
        have hmark : isZoneMark mark = true := hzone
        simp [hmark]
  unfold time?
  cases s.offset with
  | none =>
      obtain ⟨htake, hdrop⟩ := hsplit [] rfl
      rw [Option.map_none, Option.getD_none, htake, hdrop]
      simp [hclock, zone?, isEnd]
  | some o =>
      obtain ⟨sign, t, hiso, hmark, hzone⟩ := exists_offsetIso_eq o
      obtain ⟨htake, hdrop⟩ := hsplit o.iso (by rw [hiso]; exact hmark)
      rw [Option.map_some, Option.getD_some, htake, hdrop]
      simp [hclock, hzone]

/-! ## §4. Stamps. -/

/-- A character of one byte. -/
def isPlain (c : CodePoint) : Bool := c.isChar && c.byteSize = 1

theorem isPlain_of_isAsciiDigit {c : CodePoint} (h : Text.isAsciiDigit c = true) :
    isPlain c = true := by
  obtain ⟨d, hd, rfl⟩ := Text.exists_digit h
  exact (show ∀ d < 10, isPlain (Text.digit d) = true by decide) d hd

/-- Characters of one byte stand for themselves. -/
theorem widened_eq {t : Text} (h : ∀ c ∈ t, isPlain c = true) : widened t = t := by
  induction t with
  | nil => rfl
  | cons c t ih =>
      obtain ⟨hc, ht⟩ := List.forall_mem_cons.mp h
      have hsize : c.byteSize = 1 := of_decide_eq_true (Bool.and_eq_true_iff.mp hc).2
      rw [widened, List.flatMap_cons, hsize]
      exact congrArg (c :: ·) (ih ht)

/-- Where no half of a pair is, there is nothing to replace. -/
theorem withLetter_eq {t : Text} (h : ∀ c ∈ t, c.isChar = true) : withLetter t = t := by
  have hnone :
      ([7, 8, 10] : List Nat).find? (fun i => (t[i]?).any (fun c => !c.isChar)) = none := by
    refine List.find?_eq_none.mpr fun i _ => ?_
    cases hi : t[i]? with
    | none => simp
    | some c => simp [h c (List.mem_of_getElem? hi)]
  rw [withLetter, hnone]

theorem isPlain_of_isClockChar {c : CodePoint} (hc : isClockChar c = true) : isPlain c = true := by
  obtain (hdigit | rfl) | rfl : (Text.isAsciiDigit c = true ∨ c = ':') ∨ c = '.' := by
    simpa [isClockChar] using hc
  · exact isPlain_of_isAsciiDigit hdigit
  · decide
  · decide

theorem isPlain_of_mem_twoDigits (n : Nat) : ∀ c ∈ Text.twoDigits n, isPlain c = true :=
  fun c hc => isPlain_of_isClockChar (isClockChar_of_mem_twoDigits n c hc)

theorem isPlain_of_mem_fractionOf (u : Nat) : ∀ c ∈ Instant.fractionOf u, isPlain c = true :=
  fun c hc => isPlain_of_isClockChar (isClockChar_of_mem_fractionOf u c hc)

theorem isPlain_of_mem_offsetIso (o : Offset) : ∀ c ∈ o.iso, isPlain c = true := by
  have hcolon : ∀ c ∈ (":" : Text), isPlain c = true := by decide
  simp only [Offset.iso, List.forall_mem_append]
  refine ⟨⟨⟨⟨?_, isPlain_of_mem_twoDigits _⟩, hcolon⟩, isPlain_of_mem_twoDigits _⟩, ?_⟩
  · split <;> decide
  · split
    · nofun
    · simp only [List.forall_mem_append]
      exact ⟨⟨hcolon, isPlain_of_mem_twoDigits _⟩, isPlain_of_mem_fractionOf _⟩

/-- All characters of an instant in its stored form have one byte. -/
theorem isPlain_of_mem_clockIso (t : Instant) : ∀ c ∈ t.iso, isPlain c = true := by
  have hmark : ∀ mark ∈ (["-", ":", "T"] : List Text), ∀ c ∈ mark, isPlain c = true := by decide
  have hyear : ∀ c ∈ Text.zeroPadded 4 (Text.ofNat t.date.year), isPlain c = true :=
    fun c hc => isPlain_of_isAsciiDigit (Text.isAsciiDigit_of_mem_zeroPadded 4 _ c hc)
  simp only [List.forall_mem_cons, List.not_mem_nil, false_implies, implies_true, and_true] at hmark
  obtain ⟨hdash, hcolon, hletter⟩ := hmark
  simp only [Instant.iso, Date.iso, Instant.clockTime, List.forall_mem_append]
  have htwo := isPlain_of_mem_twoDigits
  exact ⟨⟨⟨⟨⟨⟨⟨hyear, hdash⟩, htwo _⟩, hdash⟩, htwo _⟩, hletter⟩,
    ⟨⟨⟨⟨htwo _, hcolon⟩, htwo _⟩, hcolon⟩, htwo _⟩⟩, isPlain_of_mem_fractionOf _⟩

theorem isPlain_of_mem_iso (s : Stamp) : ∀ c ∈ s.iso, isPlain c = true := by
  rw [iso, List.forall_mem_append]
  refine ⟨isPlain_of_mem_clockIso s.clock, ?_⟩
  cases s.offset with
  | none => nofun
  | some o => exact isPlain_of_mem_offsetIso o

theorem isEncodable_clockIso (t : Instant) : t.iso.isEncodable = true :=
  List.all_eq_true.mpr fun c hc => (Bool.and_eq_true_iff.mp (isPlain_of_mem_clockIso t c hc)).1

theorem isEncodable_iso (s : Stamp) : s.iso.isEncodable = true :=
  List.all_eq_true.mpr fun c hc => (Bool.and_eq_true_iff.mp (isPlain_of_mem_iso s c hc)).1

/-- The stored form of a stamp: its day, and what follows it. -/
theorem iso_eq (s : Stamp) :
    s.iso = s.clock.date.iso ++ .char 'T' :: (s.clock.clockTime ++
      (Instant.fractionOf s.clock.micro ++ (s.offset.map Offset.iso).getD [])) := by
  simp [iso, Instant.iso]

/-- A stored stamp is not empty. -/
theorem iso_ne_nil (s : Stamp) : s.iso ≠ [] := by
  rw [iso_eq]
  exact List.append_ne_nil_of_right_ne_nil _ (List.cons_ne_nil _ _)

/-- **The numbers of a stored stamp are read back.** -/
theorem numbers?_iso (s : Stamp) :
    numbers? s.iso = some ((s.clock.date.year, s.clock.date.month, s.clock.date.day),
      (s.clock.hour, s.clock.minute, s.clock.second, s.clock.micro),
      s.offset.map Offset.micros) := by
  have hplain := isPlain_of_mem_iso s
  have hchars := List.all_eq_true.mp (isEncodable_iso s)
  have hday : s.clock.date.iso.length = 10 := length_dateIso s.clock.date
  have hlong : ¬ s.iso.length < 7 := by
    rw [iso_eq, List.length_append]
    omega
  have hkept : widened (withLetter s.iso) = s.iso := by
    rw [withLetter_eq hchars, widened_eq hplain]
  have hlength : dayLength s.iso = s.clock.date.iso.length := by rw [iso_eq, dayLength_iso, hday]
  have htake : s.iso.take (dayLength s.iso) = s.clock.date.iso := by
    rw [hlength, iso_eq, List.take_left]
  have hdrop : s.iso.drop (dayLength s.iso) = .char 'T' :: (s.clock.clockTime ++
      (Instant.fractionOf s.clock.micro ++ (s.offset.map Offset.iso).getD [])) := by
    rw [hlength, iso_eq, List.drop_left]
  have hletter : CodePoint.byteSize (.char 'T') = 1 := rfl
  rw [numbers?, if_neg (by simpa [hlong, withLetter_eq hchars] using isEncodable_iso s)]
  simp only [hkept, htake, hdrop, hletter, List.drop_succ_cons, List.drop_zero, day?_iso, time?_iso,
    Option.bind_eq_bind, Option.bind_some]
  rfl

/-- **A stored stamp is read back.** -/
theorem read_iso (s : Stamp) : read s.iso = .ok s := by
  obtain ⟨hhour, hminute, _⟩ := s.clock.isTime
  obtain ⟨hyear, hmonth, _⟩ := s.clock.date.isDay
  have hdate : Date.of? s.clock.date.year s.clock.date.month s.clock.date.day = some s.clock.date :=
    dif_pos s.clock.date.isDay
  have htime : Instant.of? s.clock.date s.clock.hour s.clock.minute s.clock.second s.clock.micro =
      some s.clock := dif_pos s.clock.isTime
  have hclock : instantOf (s.clock.date.year, s.clock.date.month, s.clock.date.day)
      (s.clock.hour, s.clock.minute, s.clock.second, s.clock.micro) = .ok s.clock := by
    rw [instantOf, if_neg (by omega), if_neg (by omega)]
    simp only [hdate, htime]
    rw [if_neg (by omega), if_neg (by omega)]
  have hoffset : (s.offset.map Offset.micros).mapM offsetOf = .ok s.offset := by
    cases s.offset with
    | none => rfl
    | some o =>
        show (offsetOf o.micros).map some = _
        rw [offsetOf, dif_pos o.isOffset]
        rfl
  rw [read, numbers?_iso]
  simp only [hoffset, hclock, bind, Except.bind]
  rfl

end EncodedQuery.Stamp
