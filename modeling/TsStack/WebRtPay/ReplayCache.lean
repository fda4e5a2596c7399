import Mathlib.Algebra.Order.Ring.Rat
import Mathlib.Data.List.Nodup
import Mathlib.Data.List.TakeWhile
import Mathlib.Tactic.Linarith
import TsStack.WebRtPay.Validate

/-
  Signals are opened once: `openSignal` and its `ReplayCache`.

  What `wallet.decrypt`, `JSON.parse` and the field checks of
  `toPlaintext` make of an envelope is a parameter.  A time is
  a number of milliseconds.
-/

-- The cache

open List

namespace TsStack.WebRtPay

/- `DEFAULTS.signalMaxSkewMs`. -/
def signalMaxSkewMs : Rat := 120000

def REPLAY_MARGIN_MS : Rat := 60000

structure ReplayCache where
  max : Nat := 10000
  expiries : List (JsText × Rat) := []
  sweepAt : Nat := max

namespace ReplayCache

variable (cache : ReplayCache) (sid : JsText) (now ts : Rat)

/- Entries at the front that have expired are deleted. -/
def upkeep : ReplayCache :=
  { cache with expiries := cache.expiries.dropWhile fun entry => ¬now < entry.2 }

def remembers : Bool :=
  (cache.expiries.find? (·.1 = sid)).any fun entry => now < entry.2

def sweep : ReplayCache :=
  if cache.expiries.length > cache.sweepAt then
    let expiries := cache.expiries.filter fun entry => now < entry.2
    { cache with expiries, sweepAt := Max.max cache.max ((expiries.length * 3 + 1) / 2) }
  else cache

def record : ReplayCache :=
  { cache with
    expiries := cache.expiries.filter (·.1 ≠ sid) ++
      [(sid, Max.max now ts + signalMaxSkewMs + REPLAY_MARGIN_MS)] }

def check : Bool × ReplayCache :=
  if (cache.upkeep now).remembers sid now then (false, cache.upkeep now)
  else (true, ((cache.upkeep now).record sid now ts).sweep now)

end ReplayCache

-- Signals

structure SignalEnvelope where
  v : Nat
  sid : JsText
  ciphertext : JsText

def isSignalEnvelope (e : SignalEnvelope) : Bool :=
  e.v == 1 && decide (0 < e.sid.length ∧ e.sid.length ≤ 64) && decide (e.ciphertext.length ≤ 24576)

inductive SignalKind
| offer
| answer
| reject
| knock
| ring
deriving DecidableEq

structure SignalPlaintext where
  kind : SignalKind
  sid : JsText
  sender : JsText
  recipient : JsText
  ts : Rat
  sdp : Option JsText := none

def replayKey (p : SignalPlaintext) : JsText :=
  match p.kind with
  | .knock => "knock ".toList.map (UInt16.ofNat ·.toNat) ++ p.sid
  | .ring => "ring ".toList.map (UInt16.ofNat ·.toNat) ++ p.sid
  | _ => p.sid

/- An envelope from a carrier, and the options of `openSignal`. -/
structure Arrival where
  sender : JsText
  envelope : SignalEnvelope
  me : JsText
  now : Rat
  wanted : SignalPlaintext → Bool := fun _ => true

section

variable
    (isPoint : JsText → Bool) (decode : JsText → SignalEnvelope → Option (Option SignalPlaintext))

/- The checks of `openSignal` that come before the cache. -/
def checkSignal (o : Arrival) : Except String SignalPlaintext :=
  if ¬isSignalEnvelope o.envelope then .error "Malformed signal envelope"
  else if ¬isIdentityKey isPoint o.sender then .error "Signal sender is not an identity key"
  else
    match decode o.sender o.envelope with
    | none => .error "Signal cannot be decrypted"
    | some none => .error "Malformed signal"
    | some (some p) =>
      if p.sender ≠ o.sender then .error "Signal sender does not match the carrier"
      else if p.recipient ≠ o.me then .error "Signal is not addressed to us"
      else if p.sid ≠ o.envelope.sid then .error "Signal sid does not match its envelope"
      else if |o.now - p.ts| > signalMaxSkewMs then .error "Signal is stale"
      else if p.sdp.any (·.length > 16384) then .error "Signal sdp is too long"
      else if ¬o.wanted p then .error "Signal is not wanted"
      else .ok p

def openSignal (replay : ReplayCache) (o : Arrival) : Except String SignalPlaintext × ReplayCache :=
  match checkSignal isPoint decode o with
  | .error message => (.error message, replay)
  | .ok p =>
    match replay.check (replayKey p) o.now p.ts with
    | (true, replay) => (.ok p, replay)
    | (false, replay) => (.error "Signal was replayed", replay)

structure Opened where
  signal : SignalPlaintext
  now : Rat

def openNext (state : ReplayCache × List Opened) (o : Arrival) : ReplayCache × List Opened :=
  match openSignal isPoint decode state.1 o with
  | (.ok p, replay) => (replay, state.2 ++ [⟨p, o.now⟩])
  | (.error _, replay) => (replay, state.2)

end

-- The invariant

def Opened.expiry (opened : Opened) : Rat :=
  Max.max opened.now opened.signal.ts + signalMaxSkewMs + REPLAY_MARGIN_MS

def Opened.Apart (first second : Opened) : Prop :=
  replayKey first.signal = replayKey second.signal →
    Max.max first.now first.signal.ts + REPLAY_MARGIN_MS ≤ second.signal.ts

structure Remembers (clock : Rat) (state : ReplayCache × List Opened) : Prop where
  keys : (state.1.expiries.map Prod.fst).Nodup
  kept : ∀ opened ∈ state.2, clock < opened.expiry → ∃ entry ∈ state.1.expiries,
    entry.1 = replayKey opened.signal ∧ opened.expiry ≤ entry.2
  known : ∀ entry ∈ state.1.expiries, ∃ opened ∈ state.2, replayKey opened.signal = entry.1
  apart : state.2.Pairwise Opened.Apart

variable {cache next : ReplayCache} {sid : JsText} {now ts clock : Rat} {o : Arrival}
variable {isPoint : JsText → Bool}
variable {decode : JsText → SignalEnvelope → Option (Option SignalPlaintext)}
variable {state : ReplayCache × List Opened} {p : SignalPlaintext} {opened : List Opened}

/- What an entry that still counts may not lose. -/
structure Shrinks (now : Rat) (cache next : ReplayCache) : Prop where
  sublist : next.expiries.Sublist cache.expiries
  live : ∀ entry ∈ cache.expiries, now < entry.2 → entry ∈ next.expiries

theorem shrinks_upkeep (cache : ReplayCache) (now : Rat) :
  Shrinks now cache (cache.upkeep now) := by
  refine ⟨dropWhile_sublist _, fun entry hMem hLive => ?_⟩
  rw [← takeWhile_append_dropWhile (p := fun entry => decide ¬now < entry.2)
    (l := cache.expiries)] at hMem
  rcases mem_append.mp hMem with hDropped | hKept
  · have hPast :=
      mem_takeWhile_imp (p := fun entry : JsText × Rat => decide ¬now < entry.2) hDropped
    exact absurd hLive (of_decide_eq_true hPast)
  · exact hKept

theorem shrinks_sweep (cache : ReplayCache) (now : Rat) : Shrinks now cache (cache.sweep now) := by
  unfold ReplayCache.sweep
  split_ifs
  · exact ⟨filter_sublist, fun entry hMem hLive =>
      mem_filter.mpr ⟨hMem, decide_eq_true hLive⟩⟩
  · exact ⟨List.Sublist.refl _, fun _ hMem _ => hMem⟩

theorem remembers_iff (hKeys : (cache.expiries.map Prod.fst).Nodup) :
  cache.remembers sid now = true ↔ ∃ entry ∈ cache.expiries, entry.1 = sid ∧ now < entry.2 := by
  unfold ReplayCache.remembers
  rw [Option.any_eq_true]
  constructor
  · rintro ⟨entry, hFind, hLive⟩
    exact ⟨entry, mem_of_find?_eq_some hFind, by simpa using find?_some hFind,
      of_decide_eq_true hLive⟩
  · rintro ⟨entry, hMem, hSid, hLive⟩
    refine ⟨entry, ?_, decide_eq_true hLive⟩
    cases hFind : cache.expiries.find? (·.1 = sid) with
    | none => simpa [hSid] using find?_eq_none.mp hFind entry hMem
    | some other =>
      have hOther : other.1 = sid := by simpa using find?_some hFind
      rw [inj_on_of_nodup_map hKeys (mem_of_find?_eq_some hFind) hMem
        (hOther.trans hSid.symm)]

theorem Remembers.shrink (hHold : Remembers clock (cache, opened)) (hClock : clock ≤ now)
  (hShrinks : Shrinks now cache next) : Remembers now (next, opened) := by
  refine ⟨hHold.keys.sublist (hShrinks.sublist.map _), fun first hFst hLive => ?_,
    fun entry hEntry => hHold.known entry (hShrinks.sublist.subset hEntry), hHold.apart⟩
  rcases hHold.kept first hFst (lt_of_le_of_lt hClock hLive) with ⟨entry, hEntry, hKey, hExpiry⟩
  exact ⟨entry, hShrinks.live entry hEntry (lt_of_lt_of_le hLive hExpiry), hKey, hExpiry⟩

theorem apart_of_forgotten (hHold : Remembers now (cache, opened))
  (hSkew : |now - p.ts| ≤ signalMaxSkewMs) (hNew : cache.remembers (replayKey p) now = false) :
  ∀ first ∈ opened, first.Apart ⟨p, now⟩ := by
  intro first hFst hKey
  by_contra hLate
  have hLive : now < first.expiry := by
    have hNow := (abs_le.mp hSkew).2
    unfold Opened.expiry
    linarith
  rcases hHold.kept first hFst hLive with ⟨entry, hEntry, hSid, hExpiry⟩
  rw [(remembers_iff hHold.keys).mpr ⟨entry, hEntry, hSid.trans hKey, hLive.trans_le hExpiry⟩]
    at hNew
  cases hNew

theorem Remembers.record (hHold : Remembers now (cache, opened))
  (hApart : ∀ first ∈ opened, first.Apart ⟨p, now⟩) :
  Remembers now (cache.record (replayKey p) now p.ts, opened ++ [⟨p, now⟩]) := by
  have hNew : (replayKey p, (⟨p, now⟩ : Opened).expiry) ∈
      (cache.record (replayKey p) now p.ts).expiries :=
    mem_append_right _ (mem_singleton_self _)
  constructor
  case keys =>
    unfold ReplayCache.record
    rw [map_append, nodup_append]
    refine ⟨hHold.keys.sublist (filter_sublist.map _), by simp, ?_⟩
    intro key hOld last hLast hSame
    rcases List.mem_map.mp hOld with ⟨entry, hEntry, rfl⟩
    have hOther := (mem_filter.mp hEntry).2
    rw [hSame, mem_singleton.mp hLast] at hOther
    simp at hOther
  case kept =>
    intro first hFst hLive
    rcases mem_append.mp hFst with hOld | hLast
    · by_cases hKey : replayKey first.signal = replayKey p
      · refine ⟨_, hNew, hKey.symm, ?_⟩
        have hStamp := hApart first hOld hKey
        have hMax := le_max_right now p.ts
        unfold Opened.expiry signalMaxSkewMs REPLAY_MARGIN_MS at *
        dsimp only at *
        linarith
      · rcases hHold.kept first hOld hLive with ⟨entry, hEntry, hSid, hExpiry⟩
        refine ⟨entry, mem_append_left _ (mem_filter.mpr ⟨hEntry, ?_⟩), hSid, hExpiry⟩
        rw [hSid]
        exact decide_eq_true hKey
    · rw [mem_singleton.mp hLast]
      exact ⟨_, hNew, rfl, le_refl _⟩
  case known =>
    intro entry hEntry
    rcases mem_append.mp hEntry with hOld | hLast
    · rcases hHold.known entry (mem_filter.mp hOld).1 with ⟨first, hFst, hKey⟩
      exact ⟨first, mem_append_left _ hFst, hKey⟩
    · rw [mem_singleton.mp hLast]
      exact ⟨_, mem_append_right _ (mem_singleton_self _), rfl⟩
  case apart =>
    refine pairwise_append.mpr ⟨hHold.apart, pairwise_singleton _ _, ?_⟩
    intro first hFst last hLast
    rw [mem_singleton.mp hLast]
    exact hApart first hFst

-- Runs

theorem skew_of_checkSignal (hCheck : checkSignal isPoint decode o = .ok p) :
  |o.now - p.ts| ≤ signalMaxSkewMs := by
  unfold checkSignal at hCheck
  split_ifs at hCheck
  split at hCheck
  · cases hCheck
  · cases hCheck
  · split_ifs at hCheck with _ _ _ hSkew
    cases hCheck
    exact not_lt.mp hSkew

theorem openNext_of_error {message : String}
  (hCheck : checkSignal isPoint decode o = .error message) :
  openNext isPoint decode state o = state := by
  simp only [openNext, openSignal, hCheck]

theorem openNext_of_ok (hCheck : checkSignal isPoint decode o = .ok p) :
  openNext isPoint decode state o =
    if (state.1.upkeep o.now).remembers (replayKey p) o.now then (state.1.upkeep o.now, state.2)
    else (((state.1.upkeep o.now).record (replayKey p) o.now p.ts).sweep o.now,
      state.2 ++ [⟨p, o.now⟩]) := by
  simp only [openNext, openSignal, hCheck, ReplayCache.check]
  split_ifs <;> rfl

theorem remembers_openNext (hHold : Remembers clock state) (hClock : clock ≤ o.now) :
  Remembers o.now (openNext isPoint decode state o) := by
  have hKept := hHold.shrink hClock (shrinks_upkeep state.1 o.now)
  cases hCheck : checkSignal isPoint decode o with
  | error message =>
    rw [openNext_of_error hCheck]
    exact hHold.shrink hClock ⟨List.Sublist.refl _, fun _ hMem _ => hMem⟩
  | ok p =>
    rw [openNext_of_ok hCheck]
    split_ifs with hOld
    · exact hKept
    · have hApart := apart_of_forgotten hKept (skew_of_checkSignal hCheck)
        (Bool.eq_false_iff.mpr hOld)
      exact (hKept.record hApart).shrink (le_refl _) (shrinks_sweep _ _)

theorem Remembers.run {arrivals : List Arrival} (hHold : Remembers clock state)
  (hClock : (clock :: arrivals.map (·.now)).Pairwise (· ≤ ·)) :
  ∃ later, Remembers later (arrivals.foldl (openNext isPoint decode) state) := by
  induction arrivals generalizing clock state with
  | nil => exact ⟨clock, hHold⟩
  | cons o arrivals ih =>
    rw [map_cons, pairwise_cons] at hClock
    exact ih (remembers_openNext hHold (hClock.1 _ mem_cons_self)) hClock.2

theorem remembers_start {arrivals : List Arrival} (max : Nat)
  (hClock : (arrivals.map (·.now)).Pairwise (· ≤ ·)) :
  ∃ clock, Remembers clock (arrivals.foldl (openNext isPoint decode) ({ max }, [])) := by
  have hStart : ∀ clock, Remembers clock ({ max }, []) := fun _ =>
    ⟨nodup_nil, nofun, nofun, .nil⟩
  cases arrivals with
  | nil => exact ⟨0, hStart 0⟩
  | cons o arrivals =>
    apply (hStart o.now).run
    rw [map_cons, pairwise_cons] at hClock ⊢
    rw [pairwise_cons]
    exact ⟨forall_mem_cons.mpr ⟨le_refl _, hClock.1⟩, hClock⟩

/-
  Under a clock that does not go back no signal is opened twice, nor one with the key of another
  before that could no longer arrive; and a signal of a new key that passes the checks is opened.
-/
theorem signals_open_once (isPoint : JsText → Bool)
  (decode : JsText → SignalEnvelope → Option (Option SignalPlaintext)) (max : Nat) :
  ∀ arrivals : List Arrival, (arrivals.map (·.now)).Pairwise (· ≤ ·) →
    (arrivals.foldl (openNext isPoint decode) ({ max }, [])).2.Pairwise Opened.Apart ∧
      ((arrivals.foldl (openNext isPoint decode) ({ max }, [])).2.map (·.signal)).Nodup ∧
        ∀ (o : Arrival) (p : SignalPlaintext), checkSignal isPoint decode o = .ok p →
          (∀ opened ∈ (arrivals.foldl (openNext isPoint decode) ({ max }, [])).2,
            replayKey opened.signal ≠ replayKey p) →
          (openSignal isPoint decode
            (arrivals.foldl (openNext isPoint decode) ({ max }, [])).1 o).1 = .ok p := by
  intro arrivals hClock
  rcases @remembers_start isPoint decode arrivals max hClock with ⟨clock, hHold⟩
  refine ⟨hHold.apart, List.pairwise_map.mpr (hHold.apart.imp ?_), ?_⟩
  · intro first second hApart hSame
    have hStamp := hApart (congrArg replayKey hSame)
    rw [← hSame] at hStamp
    have hMax := le_max_right first.now first.signal.ts
    unfold REPLAY_MARGIN_MS at hStamp
    linarith
  · intro o p hCheck hNew
    have hKept := shrinks_upkeep
      (arrivals.foldl (openNext isPoint decode) ({ max }, [])).1 o.now
    unfold openSignal ReplayCache.check
    rw [hCheck]
    dsimp only
    split_ifs with hOld
    · rcases (remembers_iff (hHold.keys.sublist (hKept.sublist.map _))).mp hOld with
        ⟨entry, hEntry, hKey, -⟩
      rcases hHold.known entry (hKept.sublist.subset hEntry) with ⟨opened, hOpened, hSame⟩
      exact absurd (hSame.trans hKey) (hNew opened hOpened)
    · rfl

def ringSender : JsText := [48, 50] ++ List.replicate 64 48

def offerOrRing (_ : JsText) (envelope : SignalEnvelope) : Option (Option SignalPlaintext) :=
  some (some ⟨if envelope.ciphertext = [] then .offer else .ring, [97], ringSender, [], 0, none⟩)

def offerThenRing : List Arrival :=
  [[], [65]].map fun ciphertext => ⟨ringSender, ⟨1, [97], ciphertext⟩, [], 0, fun _ => true⟩

theorem signals_open_once_offerThenRing :
  ((offerThenRing.foldl (openNext (fun _ => true) offerOrRing) ({}, [])).2.map
    (·.signal)).Nodup :=
  (signals_open_once (fun _ => true) offerOrRing _ offerThenRing (by decide)).2.1

theorem ring_opened_beside_offer :
  (offerThenRing.foldl (openNext (fun _ => true) offerOrRing) ({}, [])).2.map (·.signal.sid) =
    [[97], [97]] := by
  decide +kernel

end TsStack.WebRtPay
