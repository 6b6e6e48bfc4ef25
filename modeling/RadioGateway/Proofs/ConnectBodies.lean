import Mathlib
import RadioGateway.Http.ConnectRequest
import RadioGateway.Proofs.Numerals
import RadioGateway.Proofs.Records

/-!
# What the body of a connect request asks for

A body says something about some of five fields, in a text that is blank, `null`, an object or an
array. What it says has to fit the units of the radio, and the first field in the order of the
conversion that does not fit is the one that is named. Both are stated here without the reader and
the conversion, which agree with them in what they accept and in what they refuse.
-/

namespace RadioGateway.Decimal

-- ---------------------------------------------------------------------------
-- What a double is worth
-- ---------------------------------------------------------------------------

/-- The number that a finite double is. -/
inductive Worth (x : Float) : ℚ → Prop
  | of {negative : Bool} {m : Nat} {q : Int} (h : Binary.ofFloat x = .finite negative m q) :
      Worth x ((if negative then -1 else 1) * (m * 2 ^ q))

theorem exists_worth_iff {x : Float} : (∃ v, Worth x v) ↔ x.isFinite = true := by
  rw [isFinite_iff]
  refine ⟨fun ⟨_, h⟩ => ?_, fun ⟨_, _, _, h⟩ => ⟨_, .of h⟩⟩
  obtain ⟨h⟩ := h
  exact ⟨_, _, _, h⟩

section Fraction

variable {m n : Nat} {q : Int}

theorem value_eq (m : Nat) (q : Int) :
    (m : ℚ) * 2 ^ q = (m * 2 ^ q.toNat : Nat) / (2 ^ (-q).toNat : Nat) := by
  have hpos : (0 : ℚ) < 2 ^ (-q).toNat := by positivity
  push_cast
  rw [eq_div_iff hpos.ne', mul_assoc, zpow_mul_toNat two_ne_zero]

theorem nearest_eq (m : Nat) (q : Int) :
    nearest m q = (2 * (m * 2 ^ q.toNat) + 2 ^ (-q).toNat) / (2 * 2 ^ (-q).toNat) := by
  cases q with
  | ofNat k =>
    have hdown : (-Int.ofNat k).toNat = 0 := by simp
    have hup : (Int.ofNat k).toNat = k := rfl
    rw [nearest, Nat.shiftLeft_eq, hdown, hup]
    omega
  | negSucc k =>
    rw [nearest, Nat.one_shiftLeft, Nat.shiftRight_eq_div_pow, Int.toNat_negSucc, Nat.pow_zero,
      Nat.mul_one, ← Nat.pow_succ']
    rfl

theorem roundDown_eq (m : Nat) (q : Int) :
    roundDown m q = m * 2 ^ q.toNat / 2 ^ (-q).toNat := by
  cases q with
  | ofNat k =>
    have hdown : (-Int.ofNat k).toNat = 0 := by simp
    have hup : (Int.ofNat k).toNat = k := rfl
    rw [roundDown, Nat.shiftLeft_eq, hdown, hup, Nat.pow_zero, Nat.div_one]
  | negSucc k =>
    rw [roundDown, Nat.shiftRight_eq_div_pow, Int.toNat_negSucc, Nat.pow_zero, Nat.mul_one]
    rfl

theorem roundUp_eq (m : Nat) (q : Int) :
    roundUp m q = (m * 2 ^ q.toNat + 2 ^ (-q).toNat - 1) / 2 ^ (-q).toNat := by
  cases q with
  | ofNat k =>
    have hdown : (-Int.ofNat k).toNat = 0 := by simp
    have hup : (Int.ofNat k).toNat = k := rfl
    rw [roundUp, Nat.shiftLeft_eq, hdown, hup, Nat.pow_zero, Nat.div_one,
      Nat.add_sub_cancel]
  | negSucc k =>
    rw [roundUp, Nat.one_shiftLeft, Nat.shiftRight_eq_div_pow, Int.toNat_negSucc, Nat.pow_zero,
      Nat.mul_one]
    rfl

/-- The integer nearest is no farther than half below, and less than half above. -/
theorem nearest_eq_iff :
    nearest m q = n ↔ (n : ℚ) - 1 / 2 ≤ m * 2 ^ q ∧ (m : ℚ) * 2 ^ q < n + 1 / 2 := by
  have hd := Nat.two_pow_pos (-q).toNat
  rw [nearest_eq, value_eq, Nat.div_eq_iff (by omega)]
  generalize m * 2 ^ q.toNat = a, 2 ^ (-q).toNat = d at hd ⊢
  have hd' : (0 : ℚ) < d := by exact_mod_cast hd
  have hlow : (n : ℚ) - 1 / 2 ≤ (a : ℚ) / d ↔ n * (2 * d) ≤ 2 * a + d := by
    rw [le_div_iff₀ hd', ← Nat.cast_le (α := ℚ)]
    push_cast
    constructor <;> intro h <;> linarith
  have hhigh : (a : ℚ) / d < n + 1 / 2 ↔ 2 * a + d < (n + 1) * (2 * d) := by
    rw [div_lt_iff₀ hd', ← Nat.cast_lt (α := ℚ)]
    push_cast
    constructor <;> intro h <;> linarith
  have hsucc : (n + 1) * (2 * d) = n * (2 * d) + 2 * d := Nat.succ_mul n (2 * d)
  rw [hlow, hhigh, hsucc]
  generalize n * (2 * d) = p
  omega

/-- What is rounded up and down to the same integer is that integer. -/
theorem rounds_eq_iff : roundDown m q = n ∧ roundUp m q = n ↔ (m : ℚ) * 2 ^ q = n := by
  have hd := Nat.two_pow_pos (-q).toNat
  rw [roundDown_eq, roundUp_eq, value_eq]
  generalize m * 2 ^ q.toNat = a, 2 ^ (-q).toNat = d at hd ⊢
  have hd' : (d : ℚ) ≠ 0 := by exact_mod_cast hd.ne'
  rw [div_eq_iff hd']
  have hcast : (a : ℚ) = n * d ↔ a = n * d := by exact_mod_cast Iff.rfl
  rw [hcast, Nat.div_eq_iff hd, Nat.div_eq_iff hd]
  generalize n * d = p
  omega

end Fraction

theorem toInt?_eq_some {x : Float} {i : Int} :
    (Binary.ofFloat x).toInt? = some i ↔ Worth x i := by
  constructor
  · intro h
    cases hx : Binary.ofFloat x with
    | nan | infinite => simp [hx, Binary.toInt?] at h
    | finite negative m q =>
      simp only [hx, Binary.toInt?] at h
      split at h
      · next hround =>
        obtain hvalue := rounds_eq_iff.mp ⟨rfl, hround.symm⟩
        have hworth := Worth.of hx
        rw [hvalue] at hworth
        cases h
        cases negative <;> simpa using hworth
      · cases h
  · intro h
    generalize hv : (i : ℚ) = v at h
    obtain @⟨negative, m, q, hx⟩ := h
    have hnonneg : (0 : ℚ) ≤ m * 2 ^ q := by positivity
    -- the sign leaves a natural number
    have hround {n : Nat} (h : (m : ℚ) * 2 ^ q = n) :
        (Binary.ofFloat x).toInt? = some (if negative then -(n : Int) else n) := by
      obtain ⟨hdown, hup⟩ := rounds_eq_iff.mpr h
      simp only [hx, Binary.toInt?, hdown, hup, if_true]
    cases negative with
    | false =>
      simp only [Bool.false_eq_true, if_false, one_mul] at hv hround
      have hi : 0 ≤ i := by
        rw [← hv] at hnonneg
        exact_mod_cast hnonneg
      obtain ⟨n, rfl⟩ := Int.eq_ofNat_of_zero_le hi
      exact hround (by rw [← hv]; exact Int.cast_natCast n)
    | true =>
      simp only [if_true] at hv hround
      have hneg : (m : ℚ) * 2 ^ q = (-i : Int) := by
        push_cast
        linarith
      have hi : 0 ≤ -i := by
        rw [hneg] at hnonneg
        exact_mod_cast hnonneg
      obtain ⟨n, hn⟩ := Int.eq_ofNat_of_zero_le hi
      rw [hn] at hneg
      rw [hround (hneg.trans (Int.cast_natCast n)), ← hn, Int.neg_neg]

theorem round?_eq_some {x : Float} {n : Nat} (hn : 0 < n) :
    (Binary.ofFloat x).round? = some (n : Int) ↔
      ∃ v, Worth x v ∧ (n : ℚ) - 1 / 2 ≤ v ∧ v < n + 1 / 2 := by
  constructor
  · intro h
    cases hx : Binary.ofFloat x with
    | nan | infinite => simp [hx, Binary.round?] at h
    | finite negative m q =>
      simp only [hx, Binary.round?, Option.some.injEq] at h
      cases negative with
      | false =>
        have hnearest : nearest m q = n := by simpa using h
        refine ⟨_, .of hx, ?_⟩
        simpa using nearest_eq_iff.mp hnearest
      | true =>
        simp only [if_true] at h
        omega
  · rintro ⟨v, @⟨negative, m, q, hx⟩, hlow, hhigh⟩
    cases negative with
    | false =>
      simp only [Bool.false_eq_true, if_false, one_mul] at hlow hhigh
      simp [hx, Binary.round?, nearest_eq_iff.mpr ⟨hlow, hhigh⟩]
    | true =>
      have hnonneg : (0 : ℚ) ≤ m * 2 ^ q := by positivity
      have hone : (1 : ℚ) ≤ n := by exact_mod_cast hn
      simp only [if_true] at hlow
      linarith

end RadioGateway.Decimal

namespace RadioGateway.Http

open RadioGateway.Decimal (Worth)
open RadioGateway.Gateway (GatewayError)
open RadioGateway.Json (RecordText said?)
open RadioGateway.Radio (Update plainNumber)

-- ---------------------------------------------------------------------------
-- What a body says
-- ---------------------------------------------------------------------------

/-- The fields that a body can say something about, in the order of an array. -/
def connectFields : List String :=
  ["frequency", "bandwidth", "spreadingFactor", "codingRate", "txPower"]

/-- What a body says. White space here is also the form feed, which is none in a document. -/
inductive ConnectRequest.Says : ConnectRequest → List UInt8 → Prop
  | blank {body : List UInt8} (h : ∀ b ∈ body, b ∈ [0x20, 0x09, 0x0A, 0x0C, 0x0D]) : Says {} body
  | record {ms : List (String × Option Json.Number)} {body : List UInt8}
      (h : RecordText connectFields ms body) :
      Says
        { frequency := said? ms "frequency"
          bandwidth := said? ms "bandwidth"
          spreadingFactor := said? ms "spreadingFactor"
          codingRate := said? ms "codingRate"
          txPower := said? ms "txPower" } body

-- ---------------------------------------------------------------------------
-- What fits
-- ---------------------------------------------------------------------------

/-- A number of kHz is so many Hz, to the nearest one, which 32 bits hold. -/
def Hertz (khz : Float) (hz : Nat) : Prop :=
  ∃ v, Worth (khz * 1000) v ∧ (hz : ℚ) - 1 / 2 ≤ v ∧ v < hz + 1 / 2 ∧ 0 < hz ∧ hz < 2 ^ 32

namespace ConnectRequest

/-- The update that a request asks for, where all that it says fits. -/
structure Converts (r : ConnectRequest) (u : Update) : Prop where
  finite : ∀ mhz ∈ r.frequency, ∃ v, Worth mhz v
  frequency : u.frequency = r.frequency
  bandwidth : Option.Rel Hertz r.bandwidth u.bandwidth
  codingRate : Option.Rel (fun x (n : Nat) => Worth x n ∧ n ≤ 255) r.codingRate u.codingRate
  spreadingFactor :
    Option.Rel (fun x (n : Nat) => Worth x n ∧ n ≤ 255) r.spreadingFactor u.spreadingFactor
  txPower : Option.Rel (fun x (i : Int) => Worth x i ∧ -128 ≤ i ∧ i ≤ 127) r.txPower u.txPower

/-- The fields that have to be integers, with their places in the conversion and their limits. -/
def integers (r : ConnectRequest) : List (Nat × String × Option Float × Int × Int) :=
  [(2, "codingRate", r.codingRate, 0, 255), (3, "spreadingFactor", r.spreadingFactor, 0, 255),
   (4, "txPower", r.txPower, -128, 127)]

/-- What is wrong at a place of the conversion. -/
inductive Misfit (r : ConnectRequest) : Nat → String → Prop
  | frequency {x : Float} (h : r.frequency = some x) (hx : ∀ v, ¬Worth x v) :
      Misfit r 0 "frequency must be a finite number"
  | bandwidth {x : Float} (h : r.bandwidth = some x) (hx : ∀ hz, ¬Hertz x hz) :
      Misfit r 1 ("bandwidth " ++ plainNumber x ++ " kHz is out of range")
  | fractional {place : Nat} {field : String} {x : Float} {lowest highest : Int}
      (h : (place, field, some x, lowest, highest) ∈ r.integers) (hx : ∀ i : Int, ¬Worth x i) :
      Misfit r place (field ++ " must be an integer, got " ++ plainNumber x)
  | outside {place : Nat} {field : String} {x : Float} {lowest highest i : Int}
      (h : (place, field, some x, lowest, highest) ∈ r.integers) (hx : Worth x i)
      (hi : ¬(lowest ≤ i ∧ i ≤ highest)) :
      Misfit r place (field ++ " " ++ plainNumber x ++ " is out of range")

/-- What is wrong at the first place where something is. -/
def FirstMisfit (r : ConnectRequest) (message : String) : Prop :=
  ∃ place, r.Misfit place message ∧ ∀ earlier < place, ∀ other, ¬r.Misfit earlier other

/-- A body that asks for nothing to be changed: it is blank, or none of its known fields, each of
which it may have once, holds anything but `null`. -/
def AsksNothing (body : List UInt8) : Prop :=
  (∀ b ∈ body, b ∈ [0x20, 0x09, 0x0A, 0x0C, 0x0D]) ∨
    ∃ ms, RecordText connectFields ms body ∧ ∀ m ∈ ms, m.2 = none

/-- The update that a body asks for. -/
def Asks (body : List UInt8) (u : Update) : Prop := ∃ r, Says r body ∧ r.Converts u

/-- What is wrong with a body: it says nothing that could be understood, or what it says does not
fit. -/
inductive Refused : List UInt8 → GatewayError → Prop
  | malformed {body : List UInt8} {e : Json.Error} (h : ∀ r, ¬Says r body)
      (he : schema.readOptional {} body = .error e) :
      Refused body (.configuration ("invalid connect request: " ++ e.message))
  | misfit {r : ConnectRequest} {body : List UInt8} {message : String} (h : Says r body)
      (hm : r.FirstMisfit message) : Refused body (.configuration message)

-- ---------------------------------------------------------------------------
-- Conversions
-- ---------------------------------------------------------------------------

section Conversions

variable {x khz : Float} {hz : Nat} {i lowest highest : Int} {field : String} {e : GatewayError}

theorem frequency?_eq_ok {y : Float} : frequency? x = .ok y ↔ (∃ v, Worth x v) ∧ x = y := by
  rw [Decimal.exists_worth_iff, frequency?]
  split
  · next h => simp [h]
  · next h => simp [h]

theorem frequency?_eq_error (h : frequency? x = .error e) :
    e = .configuration "frequency must be a finite number" := by
  unfold frequency? at h
  split at h <;> cases h
  rfl

theorem hertz?_eq_ok : hertz? khz = .ok hz ↔ Hertz khz hz := by
  constructor
  · intro h
    unfold hertz? at h
    split at h
    · next k hround =>
      split at h
      · next hrange =>
        obtain ⟨n, rfl⟩ := Int.eq_ofNat_of_zero_le (Int.le_of_lt hrange.1)
        have hn : 0 < n := Int.natCast_pos.mp hrange.1
        obtain ⟨v, hv, hlow, hhigh⟩ := (Decimal.round?_eq_some hn).mp hround
        cases h
        exact ⟨v, hv, hlow, hhigh, hn, Int.ofNat_lt.mp hrange.2⟩
      · cases h
    · cases h
  · rintro ⟨v, hv, hlow, hhigh, hpos, hlt⟩
    have hround := (Decimal.round?_eq_some hpos).mpr ⟨v, hv, hlow, hhigh⟩
    have hrange : 0 < (hz : Int) ∧ (hz : Int) < UInt32.size :=
      ⟨Int.natCast_pos.mpr hpos, Int.ofNat_lt.mpr hlt⟩
    simp only [hertz?, hround, if_pos hrange]
    rfl

theorem hertz?_eq_error (h : hertz? khz = .error e) :
    e = .configuration ("bandwidth " ++ plainNumber khz ++ " kHz is out of range") := by
  unfold hertz? at h
  split at h
  · split at h <;> cases h
    rfl
  · cases h
    rfl

theorem integer?_eq_ok : integer? field lowest highest x = .ok i ↔
    Worth x i ∧ lowest ≤ i ∧ i ≤ highest := by
  rw [← Decimal.toInt?_eq_some]
  unfold integer?
  split
  · next h => simp [h]
  · next k h =>
    rw [h, Option.some.injEq]
    split
    · next hk => grind
    · next hk => grind

theorem integer?_eq_error : integer? field lowest highest x = .error e ↔
    ((∀ i : Int, ¬Worth x i) ∧
      e = .configuration (field ++ " must be an integer, got " ++ plainNumber x)) ∨
    ∃ i : Int, Worth x i ∧ ¬(lowest ≤ i ∧ i ≤ highest) ∧
      e = .configuration (field ++ " " ++ plainNumber x ++ " is out of range") := by
  simp only [← Decimal.toInt?_eq_some]
  unfold integer?
  split
  · next h => simp [h, eq_comm]
  · next k h =>
    simp only [h, Option.some.injEq]
    split
    · next hk => grind
    · next hk => grind

end Conversions

section Convert

variable {α β : Type} {f : α → Except GatewayError β} {o : Option α}

theorem convert_eq_ok {R : α → β → Prop} (hf : ∀ x y, f x = .ok y ↔ R x y) {y : Option β} :
    convert f o = .ok y ↔ Option.Rel R o y := by
  cases o with
  | none =>
    simp only [convert, Except.ok.injEq]
    constructor
    · rintro rfl
      exact .none
    · intro h
      cases h
      rfl
  | some x =>
    rw [convert]
    cases hx : f x with
    | error e =>
      refine iff_of_false nofun fun h => ?_
      obtain ⟨hy⟩ := h
      cases hx.symm.trans ((hf x _).mpr hy)
    | ok z =>
      have hz := (hf x z).mp hx
      constructor
      · rintro ⟨⟩
        exact .some hz
      · intro h
        obtain ⟨hy⟩ := h
        rw [← hx, (hf x _).mpr hy]
        rfl

theorem convert_eq_error {e : GatewayError} :
    convert f o = .error e ↔ ∃ x, o = some x ∧ f x = .error e := by
  cases o with
  | none => simp [convert]
  | some x =>
    rw [convert]
    cases hx : f x <;> simp [Except.map, hx]

end Convert

-- ---------------------------------------------------------------------------
-- Places
-- ---------------------------------------------------------------------------

/-- Whether what is said at a place of the conversion fits. -/
def check (r : ConnectRequest) : Nat → Except GatewayError Unit
  | 0 => (convert frequency? r.frequency).map fun _ => ()
  | 1 => (convert hertz? r.bandwidth).map fun _ => ()
  | 2 => (convert (integer? "codingRate" 0 255) r.codingRate).map fun _ => ()
  | 3 => (convert (integer? "spreadingFactor" 0 255) r.spreadingFactor).map fun _ => ()
  | 4 => (convert (integer? "txPower" (-128) 127) r.txPower).map fun _ => ()
  | _ => .ok ()

variable {r : ConnectRequest} {u : Update} {e : GatewayError} {place : Nat} {message : String}

theorem map_eq_error {α β : Type} {f : α → β} {a : Except GatewayError α} :
    a.map f = .error e ↔ a = .error e := by
  cases a <;> simp [Except.map]

theorem bind_eq_ok {α β : Type} {a : Except GatewayError α}
    {f : α → Except GatewayError β} {b : β} : a >>= f = .ok b ↔ ∃ c, a = .ok c ∧ f c = .ok b := by
  cases a <;> simp [bind, Except.bind]

theorem bind_eq_error {α β : Type} {a : Except GatewayError α}
    {f : α → Except GatewayError β} :
    a >>= f = .error e ↔ a = .error e ∨ ∃ b, a = .ok b ∧ f b = .error e := by
  cases a <;> simp [bind, Except.bind]

/-- What comes behind a conversion is looked at only where the conversion goes well. -/
theorem map_bind {α β : Type} {a : Except GatewayError α} {f : α → Except GatewayError β}
    {rest : Except GatewayError Unit} (h : ∀ b, ((f b).map fun _ => ()) = rest) :
    ((a >>= f).map fun _ => ()) = (a.map fun _ => ()) >>= fun _ => rest := by
  cases a with
  | error e => rfl
  | ok b => exact h b

section Turns

variable {n : Nat} {f : Nat → Except GatewayError Unit}

theorem forM_range_succ :
    forM (List.range (n + 1)) f = forM (List.range n) f >>= fun _ => f n := by
  rw [List.range_succ, List.forM_append]
  simp

theorem forM_range_eq_ok :
    forM (List.range n) f = .ok () ↔ ∀ place < n, f place = .ok () := by
  induction n with
  | zero => simp [pure, Except.pure]
  | succ n ih =>
    rw [forM_range_succ, bind_eq_ok, Nat.forall_lt_succ_right, ← ih]
    exact ⟨fun ⟨_, h⟩ => h, fun h => ⟨(), h⟩⟩

/-- What is checked in turn is refused for the first that is wrong. -/
theorem forM_range_eq_error : forM (List.range n) f = .error e ↔
    ∃ place < n, f place = .error e ∧ ∀ earlier < place, f earlier = .ok () := by
  induction n with
  | zero => simp [pure, Except.pure]
  | succ n ih =>
    rw [forM_range_succ, bind_eq_error]
    constructor
    · rintro (h | ⟨_, h, hn⟩)
      · obtain ⟨place, hlt, h⟩ := ih.mp h
        exact ⟨place, Nat.lt_succ_of_lt hlt, h⟩
      · exact ⟨n, n.lt_succ_self, hn, forM_range_eq_ok.mp h⟩
    · rintro ⟨place, hlt, hwrong, hbefore⟩
      obtain hlt | rfl := Nat.lt_succ_iff_lt_or_eq.mp hlt
      · exact .inl (ih.mpr ⟨place, hlt, hwrong, hbefore⟩)
      · exact .inr ⟨(), forM_range_eq_ok.mpr hbefore, hwrong⟩

end Turns

theorem integer_misfit {field : String} {o : Option Float} {lowest highest : Int}
    (hcheck : r.check place = (convert (integer? field lowest highest) o).map fun _ => ())
    (hplace : ∀ field' o' lowest' highest', (place, field', o', lowest', highest') ∈ r.integers ↔
      field' = field ∧ o' = o ∧ lowest' = lowest ∧ highest' = highest) (hne : 2 ≤ place) :
    r.check place = .error e ↔ ∃ message, r.Misfit place message ∧ e = .configuration message := by
  rw [hcheck, map_eq_error, convert_eq_error]
  constructor
  · rintro ⟨x, rfl, hx⟩
    have hmem := (hplace field (some x) lowest highest).mpr ⟨rfl, rfl, rfl, rfl⟩
    obtain ⟨hnone, rfl⟩ | ⟨i, hi, hout, rfl⟩ := integer?_eq_error.mp hx
    · exact ⟨_, .fractional hmem hnone, rfl⟩
    · exact ⟨_, .outside hmem hi hout, rfl⟩
  · rintro ⟨message, hmisfit, rfl⟩
    cases hmisfit with
    | frequency | bandwidth => omega
    | fractional h hx =>
      obtain ⟨rfl, rfl, rfl, rfl⟩ := (hplace _ _ _ _).mp h
      exact ⟨_, rfl, integer?_eq_error.mpr (.inl ⟨hx, rfl⟩)⟩
    | outside h hx hi =>
      obtain ⟨rfl, rfl, rfl, rfl⟩ := (hplace _ _ _ _).mp h
      exact ⟨_, rfl, integer?_eq_error.mpr (.inr ⟨_, hx, hi, rfl⟩)⟩

/-- A place is refused for what is wrong there. -/
theorem check_eq_error (r : ConnectRequest) (place : Nat) (e : GatewayError) :
    r.check place = .error e ↔ ∃ message, r.Misfit place message ∧ e = .configuration message := by
  match place with
  | 0 =>
    rw [check, map_eq_error, convert_eq_error]
    constructor
    · rintro ⟨x, hr, hx⟩
      refine ⟨_, .frequency hr fun v hv => ?_, frequency?_eq_error hx⟩
      cases hx.symm.trans (frequency?_eq_ok.mpr ⟨⟨v, hv⟩, rfl⟩)
    · rintro ⟨message, hmisfit, rfl⟩
      cases hmisfit with
      | @frequency x hr hx =>
        refine ⟨x, hr, ?_⟩
        cases hread : frequency? x with
        | error e => rw [frequency?_eq_error hread]
        | ok y =>
          obtain ⟨⟨v, hv⟩, -⟩ := frequency?_eq_ok.mp hread
          exact absurd hv (hx v)
      | fractional h | outside h => simp [integers] at h
  | 1 =>
    rw [check, map_eq_error, convert_eq_error]
    constructor
    · rintro ⟨x, hr, hx⟩
      refine ⟨_, .bandwidth hr fun hz hhz => ?_, hertz?_eq_error hx⟩
      cases hx.symm.trans (hertz?_eq_ok.mpr hhz)
    · rintro ⟨message, hmisfit, rfl⟩
      cases hmisfit with
      | @bandwidth x hr hx =>
        refine ⟨x, hr, ?_⟩
        cases hread : hertz? x with
        | error e => rw [hertz?_eq_error hread]
        | ok hz => exact absurd (hertz?_eq_ok.mp hread) (hx hz)
      | fractional h | outside h => simp [integers] at h
  | 2 => exact integer_misfit rfl (by simp [integers]) (by omega)
  | 3 => exact integer_misfit rfl (by simp [integers]) (by omega)
  | 4 => exact integer_misfit rfl (by simp [integers]) (by omega)
  | place + 5 =>
    refine iff_of_false nofun ?_
    rintro ⟨message, hmisfit, -⟩
    cases hmisfit with
    | fractional h | outside h => simp [integers] at h

/-- The conversion checks the places in turn. -/
theorem map_toUpdate (r : ConnectRequest) :
    (r.toUpdate.map fun _ => ()) = forM (List.range 5) r.check :=
  map_bind fun _ => map_bind fun _ => map_bind fun _ => map_bind fun _ => map_bind fun _ => rfl

/-- What all fits is what the conversion ends with. -/
theorem toUpdate_eq_ok_iff : r.toUpdate = .ok u ↔
    convert frequency? r.frequency = .ok u.frequency ∧
    convert hertz? r.bandwidth = .ok u.bandwidth ∧
    (∃ i, convert (integer? "codingRate" 0 255) r.codingRate = .ok i ∧
      i.map Int.toNat = u.codingRate) ∧
    (∃ i, convert (integer? "spreadingFactor" 0 255) r.spreadingFactor = .ok i ∧
      i.map Int.toNat = u.spreadingFactor) ∧
    convert (integer? "txPower" (-128) 127) r.txPower = .ok u.txPower := by
  constructor
  · intro h
    simp only [toUpdate, bind_eq_ok] at h
    obtain ⟨f, h₀, b, h₁, c, h₂, s, h₃, t, h₄, h⟩ := h
    cases h
    exact ⟨h₀, h₁, ⟨c, h₂, rfl⟩, ⟨s, h₃, rfl⟩, h₄⟩
  · rintro ⟨h₀, h₁, ⟨c, h₂, hc⟩, ⟨s, h₃, hs⟩, h₄⟩
    simp only [toUpdate, bind_eq_ok]
    refine ⟨_, h₀, _, h₁, _, h₂, _, h₃, _, h₄, ?_⟩
    rw [hc, hs]
    rfl

theorem toUpdate_eq_ok : r.toUpdate = .ok u ↔ r.Converts u := by
  have hnatural {field : String} {o : Option Float} {n : Option Nat} :
      (∃ i, convert (integer? field 0 255) o = .ok i ∧ i.map Int.toNat = n) ↔
        Option.Rel (fun x (n : Nat) => Worth x n ∧ n ≤ 255) o n := by
    simp only [convert_eq_ok fun _ _ => integer?_eq_ok]
    constructor
    · rintro ⟨i, h, rfl⟩
      cases h with
      | none => exact .none
      | some h =>
        obtain ⟨hworth, hlow, hhigh⟩ := h
        obtain ⟨n, rfl⟩ := Int.eq_ofNat_of_zero_le hlow
        exact .some ⟨by exact_mod_cast hworth, Int.ofNat_le.mp hhigh⟩
    · intro h
      cases h with
      | none => exact ⟨none, .none, rfl⟩
      | @some x n h =>
        exact ⟨some n, .some ⟨by exact_mod_cast h.1, Int.natCast_nonneg n,
          Int.ofNat_le.mpr h.2⟩, rfl⟩
  have hfrequency : convert frequency? r.frequency = .ok u.frequency ↔
      (∀ mhz ∈ r.frequency, ∃ v, Worth mhz v) ∧ u.frequency = r.frequency := by
    rw [convert_eq_ok fun _ _ => frequency?_eq_ok]
    generalize r.frequency = o, u.frequency = y
    constructor
    · intro h
      cases h with
      | none => exact ⟨nofun, rfl⟩
      | some h =>
        obtain ⟨hworth, rfl⟩ := h
        exact ⟨fun _ hmem => Option.some.inj hmem ▸ hworth, rfl⟩
    · rintro ⟨hworth, rfl⟩
      cases y with
      | none => exact .none
      | some x => exact .some ⟨hworth x rfl, rfl⟩
  rw [toUpdate_eq_ok_iff, hfrequency, hnatural, hnatural, convert_eq_ok fun _ _ => hertz?_eq_ok,
    convert_eq_ok fun _ _ => integer?_eq_ok]
  constructor
  · rintro ⟨⟨hf, hf'⟩, hb, hc, hs, ht⟩
    exact ⟨hf, hf', hb, hc, hs, ht⟩
  · rintro ⟨hf, hf', hb, hc, hs, ht⟩
    exact ⟨⟨hf, hf'⟩, hb, hc, hs, ht⟩

/-- What does not fit is what the conversion ends with. -/
theorem toUpdate_eq_error : r.toUpdate = .error e ↔
    ∃ message, r.FirstMisfit message ∧ e = .configuration message := by
  rw [← map_eq_error (f := fun _ => ()), map_toUpdate, forM_range_eq_error]
  constructor
  · rintro ⟨place, -, hwrong, hbefore⟩
    obtain ⟨message, hmisfit, rfl⟩ := (check_eq_error r place e).mp hwrong
    refine ⟨message, ⟨place, hmisfit, fun earlier hlt other hother => ?_⟩, rfl⟩
    have herror := (check_eq_error r earlier _).mpr ⟨other, hother, rfl⟩
    cases herror.symm.trans (hbefore earlier hlt)
  · rintro ⟨message, ⟨place, hmisfit, hbefore⟩, rfl⟩
    have hwrong := (check_eq_error r place _).mpr ⟨message, hmisfit, rfl⟩
    have hplace : place < 5 := by
      by_contra hlarge
      obtain ⟨later, rfl⟩ := Nat.exists_eq_add_of_le' (Nat.not_lt.mp hlarge)
      cases hwrong
    refine ⟨place, hplace, hwrong, fun earlier hlt => ?_⟩
    cases hcheck : r.check earlier with
    | ok => rfl
    | error e =>
      obtain ⟨other, hother, -⟩ := (check_eq_error r earlier e).mp hcheck
      exact absurd hother (hbefore earlier hlt other)

-- ---------------------------------------------------------------------------
-- Bodies
-- ---------------------------------------------------------------------------

variable {body : List UInt8} {ms : List (String × Option Json.Number)}

def held (r : ConnectRequest) (name : String) : Option Float :=
  if name = "frequency" then r.frequency
  else if name = "bandwidth" then r.bandwidth
  else if name = "spreadingFactor" then r.spreadingFactor
  else if name = "codingRate" then r.codingRate
  else if name = "txPower" then r.txPower
  else none

theorem schema_doubles : schema.Doubles := ⟨by decide, by decide, by decide, by decide⟩

theorem schema_shows : schema.Shows held := by
  constructor
  intro f hf n r name
  simp only [schema, List.mem_cons, List.not_mem_nil, or_false] at hf
  obtain rfl | rfl | rfl | rfl | rfl := hf <;> simp only [held] <;> split_ifs <;> simp_all

theorem told_empty (h : RecordText connectFields ms body) : schema.told ms {} =
    { frequency := said? ms "frequency"
      bandwidth := said? ms "bandwidth"
      spreadingFactor := said? ms "spreadingFactor"
      codingRate := said? ms "codingRate"
      txPower := said? ms "txPower" } := by
  have honce : Json.Once schema.names [] ms := Json.once_of_recordText h (by decide)
  have hheld (name : String) (hn : name ∈ connectFields) :
      (schema.told ms {}).held name = said? ms name := by
    rw [schema_shows.told hn honce]
    have hnone : held {} name = none := by simp [held]
    rw [hnone, Option.or_none]
  have hfrequency := hheld "frequency" (by decide)
  have hbandwidth := hheld "bandwidth" (by decide)
  have hspreading := hheld "spreadingFactor" (by decide)
  have hcoding := hheld "codingRate" (by decide)
  have hpower := hheld "txPower" (by decide)
  rw [← hfrequency, ← hbandwidth, ← hspreading, ← hcoding, ← hpower]
  rfl

theorem isBlank_iff {b : UInt8} : isBlank b = true ↔ b ∈ [0x20, 0x09, 0x0A, 0x0C, 0x0D] := by
  simp [isBlank, or_assoc]

theorem not_all_isBlank (h : RecordText connectFields ms body) : body.all isBlank = false := by
  have hmark {b : UInt8} (hmem : b ∈ body) (hb : isBlank b = false) : body.all isBlank = false :=
    List.all_eq_false.mpr ⟨b, hmem, by simp [hb]⟩
  cases h with
  | null h =>
    cases h with
    | null =>
      have hn : (0x6E : UInt8) ∈ Text.Utf8.ofString "null" := by decide
      exact hmark (List.mem_append_right _ (List.mem_append_left _ hn)) rfl
  | empty => exact hmark (b := Json.openBrace) (by simp) rfl
  | object => exact hmark (b := Json.openBrace) (by simp) rfl
  | array => exact hmark (b := Json.openBracket) (by simp) rfl

/-- What a body says is what is read. -/
theorem says_iff : Says r body ↔
    if body.all isBlank then r = {} else schema.readOptional {} body = .ok r := by
  split
  · next hblank =>
    constructor
    · intro h
      cases h with
      | blank => rfl
      | record h => cases hblank.symm.trans (not_all_isBlank h)
    · rintro rfl
      exact .blank fun b hb => isBlank_iff.mp (List.all_eq_true.mp hblank b hb)
  · next hblank =>
    rw [Json.readOptional_eq_ok_iff schema_doubles]
    constructor
    · intro h
      cases h with
      | blank h => exact absurd (List.all_eq_true.mpr fun b hb => isBlank_iff.mpr (h b hb)) hblank
      | @record ms _ h => exact ⟨ms, h, (told_empty h).symm⟩
    · rintro ⟨ms, h, rfl⟩
      rw [told_empty h]
      exact .record h

theorem asks_empty (h : AsksNothing body) : Asks body {} := by
  have hconverts : ({} : ConnectRequest).Converts {} := ⟨nofun, rfl, .none, .none, .none, .none⟩
  obtain hblank | ⟨ms, hms, hnone⟩ := h
  · exact ⟨{}, .blank hblank, hconverts⟩
  · have hsaid (name : String) : said? ms name = none := by
      unfold said?
      cases hlookup : ms.lookup name with
      | none => rfl
      | some said =>
        obtain ⟨before, after, rfl, -⟩ := List.lookup_eq_some_iff.mp hlookup
        have hsaid : said = none := hnone (name, said) (by simp)
        rw [hsaid]
        rfl
    have hsays := Says.record hms
    simp only [hsaid] at hsays
    exact ⟨{}, hsays, hconverts⟩

/-- A body is accepted exactly for the update that it asks for. -/
theorem ofBody_eq_ok_iff : ofBody body = .ok u ↔ Asks body u := by
  unfold Asks ofBody
  simp only [says_iff, ← toUpdate_eq_ok]
  split
  · next => simp
  · next =>
    cases schema.readOptional {} body with
    | error e => simp
    | ok r => simp

/-- A body is refused exactly for what is wrong with it. -/
theorem ofBody_eq_error_iff : ofBody body = .error e ↔ Refused body e := by
  constructor
  · intro h
    unfold ofBody at h
    split at h
    · cases h
    next hblank =>
    split at h
    · next r hread =>
      obtain ⟨message, hfirst, rfl⟩ := toUpdate_eq_error.mp h
      exact .misfit (says_iff.mpr (by rwa [if_neg hblank])) hfirst
    · next e' hread =>
      cases h
      refine .malformed (fun r hsays => ?_) hread
      rw [says_iff, if_neg hblank, hread] at hsays
      cases hsays
  · intro h
    cases h with
    | malformed h he =>
      have hblank : ¬body.all isBlank = true := by
        intro hblank
        exact h {} (says_iff.mpr (by rw [if_pos hblank]))
      simp only [ofBody, if_neg hblank, he]
    | @misfit r _ message hsays hfirst =>
      have herror : r.toUpdate = .error (.configuration message) :=
        toUpdate_eq_error.mpr ⟨message, hfirst, rfl⟩
      rw [says_iff] at hsays
      unfold ofBody
      split at hsays
      · next hblank =>
        rw [if_pos hblank, ← hsays, herror]
      · next hblank =>
        simp only [if_neg hblank, hsays, herror]

end ConnectRequest

end RadioGateway.Http
