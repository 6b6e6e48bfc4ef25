import Mathlib.Data.Multiset.Filter
import Mathlib.Logic.Function.Basic
import RadioGateway.Gateway.State

/-!
# Who holds a lock, who waits for it, and who goes on

The turn and the radio are locks, and every party has a standing towards them. `Orderly` ties the
standings to the two queues and to the parties that will go on without being handed anything: a
party stands in a queue exactly when it has a claim, and it goes on exactly when it holds what it
claims.
-/

namespace RadioGateway.Gateway

open Function (update)

/-- What a party has to do with a lock. -/
inductive Claim where
  | none
  | wants
  | has
  deriving DecidableEq, Repr

namespace Claim

/-- The claim of a party that goes on: what it wanted it has. -/
def granted : Claim → Claim
  | .none => .none
  | _ => .has

@[simp] theorem granted_eq_none {c : Claim} : c.granted = .none ↔ c = .none := by
  cases c <;> simp [granted]

@[simp] theorem granted_ne_wants (c : Claim) : c.granted ≠ .wants := by cases c <;> simp [granted]

end Claim

-- ---------------------------------------------------------------------------
-- One lock
-- ---------------------------------------------------------------------------

/-- The queue of a lock is made of those who claim it, each once, and who has it is the holder. -/
structure Lock.Serves (l : Lock) (claim : Party → Claim) : Prop where
  sound : l.Sound
  nodup : l.parties.Nodup
  mem : ∀ p, p ∈ l.parties ↔ claim p ≠ .none
  held : ∀ p, claim p = .has → l.holder = some p

namespace Lock

theorem mem_parties_of_holder {l : Lock} {p : Party} (h : l.holder = some p) : p ∈ l.parties := by
  simp [parties, h]

theorem mem_parties_of_waiting {l : Lock} {p : Party} (h : p ∈ l.waiting) : p ∈ l.parties := by
  simp [parties, h]

theorem holder_acquire (l : Lock) (p : Party) :
    (l.acquire p).1.holder = some (l.holder.getD p) ∧
      ((l.acquire p).2 = true ↔ l.holder = none) := by
  unfold acquire
  split
  · rename_i h; simp [h]
  · rename_i h; simp [h]

@[simp] theorem holder_release (l : Lock) : l.release.1.holder = l.release.2 := by
  unfold release; split <;> rfl

theorem release_snd (l : Lock) : l.release.2 = l.waiting.head? := by
  unfold release; split <;> simp [*]

theorem parties_eq_cons {l : Lock} {p : Party} (h : l.holder = some p) :
    l.parties = p :: l.release.1.parties := by
  rw [parties_release, parties, h]; rfl

theorem withdraw_of_holder {l : Lock} {p : Party} (h : l.holder = some p) :
    l.withdraw p = l.release := by
  simp [withdraw, h]

theorem withdraw_of_not_holder {l : Lock} {p : Party} (h : l.holder ≠ some p) :
    l.withdraw p = ({ l with waiting := l.waiting.erase p }, none) := by
  simp [withdraw, h]

theorem parties_withdraw {l : Lock} (p : Party) : (l.withdraw p).1.parties = l.parties.erase p := by
  by_cases hp : l.holder = some p
  · rw [withdraw_of_holder hp, parties_eq_cons hp, List.erase_cons_head]
  · rw [withdraw_of_not_holder hp]
    unfold parties
    cases hh : l.holder with
    | none => rfl
    | some q =>
      have hne : q ≠ p := fun he => hp (by rw [hh, he])
      simp [hne]

namespace Serves

variable {l : Lock} {claim : Party → Claim} {p : Party}

theorem holder_ne (h : l.Serves claim) (hp : claim p = .none) : l.holder ≠ some p :=
  fun hh => (h.mem p).mp (mem_parties_of_holder hh) hp

theorem none_of_free (h : l.Serves claim) (hl : l.holder = none) (p : Party) : claim p = .none := by
  by_contra hne
  have hm := (h.mem p).mpr hne
  rw [parties, hl, h.sound hl] at hm
  cases hm

theorem waiting_wants (h : l.Serves claim) (hw : p ∈ l.waiting) : claim p = .wants := by
  have hne := (h.mem p).mp (mem_parties_of_waiting hw)
  cases hc : claim p with
  | none => exact absurd hc hne
  | wants => rfl
  | has =>
    have hnd := h.nodup
    rw [parties, h.held p hc] at hnd
    exact absurd hw (List.nodup_cons.mp hnd).1

theorem wants_of_release (h : l.Serves claim) (hp : l.holder = some p) {x : Party}
    (hx : l.release.2 = some x) : claim x = .wants ∧ x ≠ p := by
  have hw : x ∈ l.waiting := List.mem_of_mem_head? (release_snd l ▸ hx)
  refine ⟨h.waiting_wants hw, fun he => ?_⟩
  have hnd := h.nodup
  rw [parties, hp] at hnd
  exact (List.nodup_cons.mp hnd).1 (he ▸ hw)

theorem acquire (h : l.Serves claim) (hp : claim p = .none) :
    (l.acquire p).1.Serves (update claim p .wants) := by
  have hnew : p ∉ l.parties := fun hm => (h.mem p).mp hm hp
  refine ⟨sound_acquire l p, ?_, ?_, ?_⟩
  · rw [parties_acquire p h.sound]
    exact List.nodup_append.mpr ⟨h.nodup, by simp, by
      intro x hx y hy
      have : y = p := by simpa using hy
      exact fun hxy => hnew (this ▸ hxy ▸ hx)⟩
  · intro x
    rw [parties_acquire p h.sound]
    by_cases hx : x = p
    · simp [hx]
    · simp [hx, h.mem x]
  · intro x hc
    by_cases hx : x = p
    · simp [hx] at hc
    · rw [Function.update_of_ne hx] at hc
      rw [(holder_acquire l p).1, h.held x hc]; rfl

theorem holder_acquire_self (h : l.Serves claim) (hp : claim p = .none) :
    (l.acquire p).1.holder = some p ↔ (l.acquire p).2 = true := by
  rw [(holder_acquire l p).1, (holder_acquire l p).2]
  cases hh : l.holder with
  | none => simp
  | some r =>
    have : r ≠ p := fun he => h.holder_ne hp (he ▸ hh)
    simp [this]

theorem holder_acquire_other (h : l.Serves claim) {x : Party} (hx : claim x ≠ .none) :
    (l.acquire p).1.holder = some x ↔ l.holder = some x := by
  rw [(holder_acquire l p).1]
  cases hh : l.holder with
  | none =>
    have hm := (h.mem x).mpr hx
    simp [parties, hh, h.sound hh] at hm
  | some r => rfl

theorem same (h : l.Serves claim) {c : Claim} (hc : claim p = c) : l.Serves (update claim p c) := by
  rwa [← hc, Function.update_eq_self]

theorem take (h : l.Serves claim) (hp : l.holder = some p) : l.Serves (update claim p .has) := by
  refine ⟨h.sound, h.nodup, ?_, ?_⟩
  · intro x
    by_cases hx : x = p
    · simp [hx, mem_parties_of_holder hp]
    · simp [hx, h.mem x]
  · intro x hc
    by_cases hx : x = p
    · rw [hx, hp]
    · exact h.held x (by rwa [Function.update_of_ne hx] at hc)

theorem go (h : l.Serves claim) (hp : claim p ≠ .none → l.holder = some p) :
    l.Serves (update claim p (claim p).granted) := by
  cases hc : claim p with
  | none => exact h.same hc
  | wants => exact h.take (hp (by simp [hc]))
  | has => exact h.take (hp (by simp [hc]))

theorem release (h : l.Serves claim) (hp : l.holder = some p) :
    l.release.1.Serves (update claim p .none) := by
  have hnd := h.nodup
  rw [parties_eq_cons hp] at hnd
  have hfresh := (List.nodup_cons.mp hnd).1
  refine ⟨sound_release l, (List.nodup_cons.mp hnd).2, ?_, ?_⟩
  · intro x
    by_cases hx : x = p
    · simp [hx, hfresh]
    · simp only [Function.update_of_ne hx, ← h.mem x, parties_eq_cons hp, List.mem_cons, hx,
        false_or]
  · intro x hc
    by_cases hx : x = p
    · simp [hx] at hc
    · rw [Function.update_of_ne hx] at hc
      have : some x = some p := (h.held x hc).symm.trans hp
      exact absurd (Option.some.inj this) hx

theorem withdraw (h : l.Serves claim) (p : Party) :
    (l.withdraw p).1.Serves (update claim p .none) := by
  by_cases hp : l.holder = some p
  · rw [withdraw_of_holder hp]; exact h.release hp
  · have hpar := l.parties_withdraw p
    rw [withdraw_of_not_holder hp] at hpar ⊢
    refine ⟨?_, ?_, ?_, ?_⟩
    · intro hn; simp [h.sound hn]
    · rw [hpar]; exact h.nodup.erase p
    · intro x
      rw [hpar, h.nodup.mem_erase_iff]
      by_cases hx : x = p
      · simp [hx]
      · simp [hx, h.mem x]
    · intro x hc
      by_cases hx : x = p
      · simp [hx] at hc
      · exact h.held x (by rwa [Function.update_of_ne hx] at hc)

end Serves

end Lock

-- ---------------------------------------------------------------------------
-- Both locks, and those who go on
-- ---------------------------------------------------------------------------

structure Standing where
  turn : Claim
  radio : Claim
  /-- Whether it goes on by itself once it holds what it claims. Not so in the middle of a step. -/
  active : Bool
  deriving DecidableEq, Repr

namespace Standing

def gone : Standing := ⟨.none, .none, false⟩

def free : Standing := ⟨.none, .none, true⟩

/-- The standing of a party in the middle of its step. -/
def acting (s : Standing) : Standing := ⟨s.turn.granted, s.radio.granted, false⟩

end Standing

structure Queues where
  turn : Lock
  radio : Lock
  awake : Multiset Party

namespace Queues

variable (q : Queues) (p : Party)

def wake : Queues := { q with awake := p ::ₘ q.awake }

def wakeHolder : Option Party → Queues
  | none => q
  | some p => q.wake p

def seekTurn : Queues :=
  let q' : Queues := { q with turn := (q.turn.acquire p).1 }
  if (q.turn.acquire p).2 then q'.wake p else q'

def seekRadio : Queues :=
  let q' : Queues := { q with radio := (q.radio.acquire p).1 }
  if (q.radio.acquire p).2 then q'.wake p else q'

def leaveTurn : Queues := { q with turn := q.turn.release.1 }.wakeHolder q.turn.release.2

def leaveRadio : Queues := { q with radio := q.radio.release.1 }.wakeHolder q.radio.release.2

def begin : Queues := { q with awake := q.awake.erase p }

def dismiss : Queues :=
  { q with radio := (q.radio.withdraw p).1, awake := q.awake.filter (· ≠ p) }.wakeHolder
    (q.radio.withdraw p).2

/-- A party of that standing goes on by itself. -/
def LetsGo (s : Standing) : Prop :=
  s.active = true ∧ (s.turn ≠ .none → q.turn.holder = some p) ∧
    (s.radio ≠ .none → q.radio.holder = some p)

section Waking

variable {q p} {x : Party} {next : Option Party}

theorem wakeHolder_turn : (q.wakeHolder next).turn = q.turn := by cases next <;> rfl

theorem wakeHolder_radio : (q.wakeHolder next).radio = q.radio := by cases next <;> rfl

theorem mem_wakeHolder : x ∈ (q.wakeHolder next).awake ↔ x ∈ q.awake ∨ next = some x := by
  cases next <;> simp [wakeHolder, wake, or_comm, eq_comm]

theorem nodup_wakeHolder (h : q.awake.Nodup) (hn : ∀ x, next = some x → x ∉ q.awake) :
    (q.wakeHolder next).awake.Nodup := by
  cases next with
  | none => exact h
  | some x => exact Multiset.nodup_cons.mpr ⟨hn x rfl, h⟩

theorem seekTurn_turn : (q.seekTurn p).turn = (q.turn.acquire p).1 := by
  unfold seekTurn wake; split <;> rfl

theorem seekTurn_radio : (q.seekTurn p).radio = q.radio := by
  unfold seekTurn wake; split <;> rfl

theorem mem_seekTurn :
    x ∈ (q.seekTurn p).awake ↔ x ∈ q.awake ∨ (x = p ∧ (q.turn.acquire p).2 = true) := by
  unfold seekTurn wake
  split <;> rename_i hg <;> simp [hg, or_comm]

theorem nodup_seekTurn (h : q.awake.Nodup) (hp : p ∉ q.awake) : (q.seekTurn p).awake.Nodup := by
  unfold seekTurn wake
  split
  · exact Multiset.nodup_cons.mpr ⟨hp, h⟩
  · exact h

theorem seekRadio_turn : (q.seekRadio p).turn = q.turn := by
  unfold seekRadio wake; split <;> rfl

theorem seekRadio_radio : (q.seekRadio p).radio = (q.radio.acquire p).1 := by
  unfold seekRadio wake; split <;> rfl

theorem mem_seekRadio :
    x ∈ (q.seekRadio p).awake ↔ x ∈ q.awake ∨ (x = p ∧ (q.radio.acquire p).2 = true) := by
  unfold seekRadio wake
  split <;> rename_i hg <;> simp [hg, or_comm]

theorem nodup_seekRadio (h : q.awake.Nodup) (hp : p ∉ q.awake) : (q.seekRadio p).awake.Nodup := by
  unfold seekRadio wake
  split
  · exact Multiset.nodup_cons.mpr ⟨hp, h⟩
  · exact h

end Waking

end Queues

structure Orderly (σ : Party → Standing) (q : Queues) : Prop where
  turn : q.turn.Serves (Standing.turn ∘ σ)
  radio : q.radio.Serves (Standing.radio ∘ σ)
  nodup : q.awake.Nodup
  mem : ∀ p, p ∈ q.awake ↔ q.LetsGo p (σ p)
  /-- Nobody waits for the turn while it claims the radio. -/
  wantsTurn : ∀ p, (σ p).turn = .wants → (σ p).active = true ∧ (σ p).radio = .none
  wantsRadio : ∀ p, (σ p).radio = .wants → (σ p).active = true

namespace Orderly

variable {σ : Party → Standing} {q : Queues} {p : Party}

theorem not_mem_of_inactive (h : Orderly σ q) (hp : (σ p).active = false) : p ∉ q.awake := by
  intro hm
  have := ((h.mem p).mp hm).1
  simp [hp] at this

theorem turn_holder (h : Orderly σ q) (hp : (σ p).active = false) (hc : (σ p).turn ≠ .none) :
    q.turn.holder = some p := by
  cases ht : (σ p).turn with
  | none => exact absurd ht hc
  | wants => have := (h.wantsTurn p ht).1; simp [hp] at this
  | has => exact h.turn.held p ht

theorem radio_holder (h : Orderly σ q) (hp : (σ p).active = false) (hc : (σ p).radio ≠ .none) :
    q.radio.holder = some p := by
  cases ht : (σ p).radio with
  | none => exact absurd ht hc
  | wants => have := h.wantsRadio p ht; simp [hp] at this
  | has => exact h.radio.held p ht

/-- One party changes its standing, and the queues change to match. -/
theorem change (h : Orderly σ q) {s : Standing} {q' : Queues}
    (hturn : q'.turn.Serves (update (Standing.turn ∘ σ) p s.turn))
    (hradio : q'.radio.Serves (update (Standing.radio ∘ σ) p s.radio))
    (hnodup : q'.awake.Nodup)
    (hself : p ∈ q'.awake ↔ q'.LetsGo p s)
    (hothers : ∀ x ≠ p, x ∈ q'.awake ↔ q'.LetsGo x (σ x))
    (hwantsTurn : s.turn = .wants → s.active = true ∧ s.radio = .none)
    (hwantsRadio : s.radio = .wants → s.active = true) : Orderly (update σ p s) q' where
  turn := by rwa [Function.comp_update]
  radio := by rwa [Function.comp_update]
  nodup := hnodup
  mem := (Function.forall_update_iff σ fun x s => x ∈ q'.awake ↔ q'.LetsGo x s).mpr
    ⟨hself, hothers⟩
  wantsTurn := (Function.forall_update_iff σ fun _ s =>
    s.turn = .wants → s.active = true ∧ s.radio = .none).mpr
    ⟨hwantsTurn, fun x _ => h.wantsTurn x⟩
  wantsRadio := (Function.forall_update_iff σ fun _ s => s.radio = .wants → s.active = true).mpr
    ⟨hwantsRadio, fun x _ => h.wantsRadio x⟩

theorem begin (h : Orderly σ q) (hp : p ∈ q.awake) :
    Orderly (update σ p (σ p).acting) (q.begin p) := by
  obtain ⟨-, hturn, hradio⟩ := (h.mem p).mp hp
  refine h.change (h.turn.go hturn) (h.radio.go hradio) (h.nodup.erase p) ?_ ?_ ?_ ?_
  · simp [Queues.begin, Queues.LetsGo, Standing.acting, h.nodup.notMem_erase]
  · intro x hx
    rw [Queues.begin, Multiset.mem_erase_of_ne hx]
    exact h.mem x
  · intro hw
    exact absurd hw (Claim.granted_ne_wants _)
  · intro hw
    exact absurd hw (Claim.granted_ne_wants _)

theorem rest (h : Orderly σ q) (hp : (σ p).active = false) :
    Orderly (update σ p { σ p with active := true }) (q.wake p) := by
  refine h.change (h.turn.same rfl) (h.radio.same rfl)
    (Multiset.nodup_cons.mpr ⟨h.not_mem_of_inactive hp, h.nodup⟩) ?_ ?_ ?_ fun _ => rfl
  · simpa [Queues.wake, Queues.LetsGo] using ⟨h.turn_holder hp, h.radio_holder hp⟩
  · intro x hx
    rw [Queues.wake, Multiset.mem_cons, or_iff_right hx]
    exact h.mem x
  · intro hw
    have := (h.wantsTurn p hw).1
    simp [hp] at this

theorem leaveRadio (h : Orderly σ q) (hp : (σ p).active = false) (hc : (σ p).radio = .has) :
    Orderly (update σ p { σ p with radio := .none }) q.leaveRadio := by
  have hold : q.radio.holder = some p := h.radio.held p hc
  have hnext : ∀ x, q.radio.release.2 = some x → (σ x).radio = .wants ∧ x ≠ p :=
    fun x => h.radio.wants_of_release hold
  have hnot : ∀ x, q.radio.release.2 = some x → x ∉ q.awake := by
    intro x hx hm
    obtain ⟨hw, hne⟩ := hnext x hx
    have : q.radio.holder = some x := ((h.mem x).mp hm).2.2 (by simp [hw])
    exact hne (Option.some.inj (this.symm.trans hold))
  have hturn : q.leaveRadio.turn = q.turn := Queues.wakeHolder_turn
  have hradio : q.leaveRadio.radio = q.radio.release.1 := Queues.wakeHolder_radio
  refine h.change ?_ ?_ (Queues.nodup_wakeHolder h.nodup hnot) ?_ ?_ ?_ ?_
  · rw [hturn]
    exact h.turn.same rfl
  · rw [hradio]
    exact h.radio.release hold
  · rw [Queues.leaveRadio, Queues.mem_wakeHolder, Queues.LetsGo]
    simpa [hp, h.not_mem_of_inactive hp] using fun he => (hnext p he).2 rfl
  · intro x hx
    rw [Queues.leaveRadio, Queues.mem_wakeHolder, ← Queues.leaveRadio, Queues.LetsGo, hturn, hradio,
      Lock.holder_release]
    by_cases hn : q.radio.release.2 = some x
    · have hw := (hnext x hn).1
      have ha := h.wantsRadio x hw
      have ht : (σ x).turn ≠ .none → q.turn.holder = some x := by
        intro hne
        cases htx : (σ x).turn with
        | none => exact absurd htx hne
        | wants => have := (h.wantsTurn x htx).2; simp [hw] at this
        | has => exact h.turn.held x htx
      exact ⟨fun _ => ⟨ha, ht, fun _ => hn⟩, fun _ => .inr hn⟩
    · rw [or_iff_left hn, h.mem x, Queues.LetsGo]
      refine and_congr_right fun _ => and_congr_right fun _ => forall_congr' fun _ => ?_
      have : q.radio.holder ≠ some x := fun he => hx (Option.some.inj (he.symm.trans hold))
      simp [hn, this]
  · intro ht
    have := (h.wantsTurn p ht).1
    simp [hp] at this
  · intro hw
    cases hw

theorem leaveTurn (h : Orderly σ q) (hp : (σ p).active = false) (hc : (σ p).turn = .has) :
    Orderly (update σ p { σ p with turn := .none }) q.leaveTurn := by
  have hold : q.turn.holder = some p := h.turn.held p hc
  have hnext : ∀ x, q.turn.release.2 = some x → (σ x).turn = .wants ∧ x ≠ p :=
    fun x => h.turn.wants_of_release hold
  have hnot : ∀ x, q.turn.release.2 = some x → x ∉ q.awake := by
    intro x hx hm
    obtain ⟨hw, hne⟩ := hnext x hx
    have : q.turn.holder = some x := ((h.mem x).mp hm).2.1 (by simp [hw])
    exact hne (Option.some.inj (this.symm.trans hold))
  have hturn : q.leaveTurn.turn = q.turn.release.1 := Queues.wakeHolder_turn
  have hradio : q.leaveTurn.radio = q.radio := Queues.wakeHolder_radio
  refine h.change ?_ ?_ (Queues.nodup_wakeHolder h.nodup hnot) ?_ ?_ ?_ (h.wantsRadio p)
  · rw [hturn]
    exact h.turn.release hold
  · rw [hradio]
    exact h.radio.same rfl
  · rw [Queues.leaveTurn, Queues.mem_wakeHolder, Queues.LetsGo]
    simpa [hp, h.not_mem_of_inactive hp] using fun he => (hnext p he).2 rfl
  · intro x hx
    rw [Queues.leaveTurn, Queues.mem_wakeHolder, ← Queues.leaveTurn, Queues.LetsGo, hturn, hradio,
      Lock.holder_release]
    by_cases hn : q.turn.release.2 = some x
    · obtain ⟨ha, hr⟩ := h.wantsTurn x (hnext x hn).1
      simp [hn, ha, hr]
    · rw [or_iff_left hn, h.mem x, Queues.LetsGo]
      refine and_congr_right fun _ => and_congr_left fun _ => forall_congr' fun _ => ?_
      have : q.turn.holder ≠ some x := fun he => hx (Option.some.inj (he.symm.trans hold))
      simp [hn, this]
  · intro hw
    cases hw

theorem seekTurn (h : Orderly σ q) (hp : σ p = .gone) :
    Orderly (update σ p ⟨.wants, .none, true⟩) (q.seekTurn p) := by
  have hc : (Standing.turn ∘ σ) p = .none := congrArg Standing.turn hp
  have hr : (Standing.radio ∘ σ) p = .none := congrArg Standing.radio hp
  have hnot : p ∉ q.awake := h.not_mem_of_inactive (congrArg Standing.active hp)
  refine h.change ?_ ?_ (Queues.nodup_seekTurn h.nodup hnot) ?_ ?_ (fun _ => ⟨rfl, rfl⟩)
    fun _ => rfl
  · rw [Queues.seekTurn_turn]
    exact h.turn.acquire hc
  · rw [Queues.seekTurn_radio]
    exact h.radio.same hr
  · rw [Queues.mem_seekTurn, Queues.LetsGo, Queues.seekTurn_turn, h.turn.holder_acquire_self hc]
    simp [hnot]
  · intro x hx
    rw [Queues.mem_seekTurn, Queues.LetsGo, Queues.seekTurn_turn, Queues.seekTurn_radio]
    simp only [hx, false_and, or_false, h.mem x, Queues.LetsGo]
    refine and_congr_right fun _ => and_congr_left fun _ => forall_congr' fun hne => ?_
    exact (h.turn.holder_acquire_other hne).symm

theorem seekRadio (h : Orderly σ q) (hp : (σ p).active = false) (hc : (σ p).radio = .none) :
    Orderly (update σ p ⟨(σ p).turn, .wants, true⟩) (q.seekRadio p) := by
  have hnot : p ∉ q.awake := h.not_mem_of_inactive hp
  refine h.change ?_ ?_ (Queues.nodup_seekRadio h.nodup hnot) ?_ ?_ ?_ fun _ => rfl
  · rw [Queues.seekRadio_turn]
    exact h.turn.same rfl
  · rw [Queues.seekRadio_radio]
    exact h.radio.acquire hc
  · rw [Queues.mem_seekRadio, Queues.LetsGo, Queues.seekRadio_turn, Queues.seekRadio_radio,
      h.radio.holder_acquire_self hc]
    simpa [hnot] using fun _ => h.turn_holder hp
  · intro x hx
    rw [Queues.mem_seekRadio, Queues.LetsGo, Queues.seekRadio_turn, Queues.seekRadio_radio]
    simp only [hx, false_and, or_false, h.mem x, Queues.LetsGo]
    refine and_congr_right fun _ => and_congr_right fun _ => forall_congr' fun hne => ?_
    exact (h.radio.holder_acquire_other hne).symm
  · intro hw
    have := (h.wantsTurn p hw).1
    simp [hp] at this

theorem dismiss (h : Orderly σ q) (ht : (σ p).turn = .none) (ha : (σ p).active = true) :
    Orderly (update σ p .gone) (q.dismiss p) := by
  by_cases hold : q.radio.holder = some p
  · -- it goes on with the radio and gives it back
    have hc : (σ p).radio ≠ .none := (h.radio.mem p).mp (Lock.mem_parties_of_holder hold)
    have hm : p ∈ q.awake := (h.mem p).mpr ⟨ha, by simp [ht], fun _ => hold⟩
    have hb := h.begin hm
    have hhas : (σ p).acting.radio = .has := by
      unfold Standing.acting Claim.granted; split <;> simp_all
    have hl := hb.leaveRadio (p := p) (by simp [Standing.acting]) (by simpa using hhas)
    rw [Function.update_self, Function.update_idem] at hl
    have hs : ({ (σ p).acting with radio := .none } : Standing) = .gone := by
      simp [Standing.acting, Standing.gone, ht, Claim.granted]
    have hq : (q.begin p).leaveRadio = q.dismiss p := by
      simp [Queues.dismiss, Queues.leaveRadio, Queues.begin, Lock.withdraw_of_holder hold,
        h.nodup.erase_eq_filter]
    rwa [hs, hq] at hl
  · have hq : q.dismiss p = { q with
        radio := { q.radio with waiting := q.radio.waiting.erase p }
        awake := q.awake.filter (· ≠ p) } := by
      simp [Queues.dismiss, Queues.wakeHolder, Lock.withdraw_of_not_holder hold]
    have hw := h.radio.withdraw p
    rw [Lock.withdraw_of_not_holder hold] at hw
    rw [hq]
    refine h.change (h.turn.same ht) hw (h.nodup.filter _) ?_ ?_ ?_ ?_
    · simp [Queues.LetsGo, Standing.gone]
    · intro x hx
      simp [Multiset.mem_filter, hx, h.mem x, Queues.LetsGo]
    · intro hw
      cases hw
    · intro hw
      cases hw

end Orderly

end RadioGateway.Gateway
