import TsStack.Lib.LinkedInterval
import TsStack.Overlay.TopicAnchors

/-
  The invariant of the topic anchor chains.

  A pass replaces a slice of a chain.  The chain stays
  linked when no anchor is left above the slice, or when the
  pass stores the block hashes and roots that were there.
-/

-- Lookups

open List Option

namespace TsStack.Overlay

open AnchorStorage

open StateProgram (finalState)

variable {storage : AnchorStorage} {topic other : JsString} {height : Nat}
variable {anchor : TopicBlockAnchor}

theorem findTopicBlockAnchor_upsert
  (storage : AnchorStorage) (anchor : TopicBlockAnchor) (topic : JsString) (height : Nat) :
  (storage.upsertTopicBlockAnchor anchor).findTopicBlockAnchor topic height =
    if anchor.topic = topic ∧ anchor.blockHeight = height then some anchor
    else storage.findTopicBlockAnchor topic height := by
  unfold findTopicBlockAnchor upsertTopicBlockAnchor
  rw [find?_cons]
  split_ifs with hKey
  · simp [hKey]
  · simp only [hKey, decide_false, find?_filter]
    congr 1
    funext candidate
    grind

theorem mem_of_findTopicBlockAnchor
  (hFind : storage.findTopicBlockAnchor topic height = some anchor) :
  anchor ∈ storage.anchors ∧ anchor.topic = topic ∧ anchor.blockHeight = height := by
  constructor
  · exact mem_of_find?_eq_some hFind
  · simpa using find?_some hFind

theorem isSome_findTopicBlockAnchor (hAnchor : anchor ∈ storage.anchors) :
  (storage.findTopicBlockAnchor anchor.topic anchor.blockHeight).isSome := by
  unfold findTopicBlockAnchor
  rw [find?_isSome]
  exact ⟨anchor, hAnchor, by simp⟩

theorem findTopicAnchorTip_eq_none (hTip : storage.findTopicAnchorTip topic = none) (height : Nat) :
  storage.findTopicBlockAnchor topic height = none := by
  unfold findTopicAnchorTip at hTip
  rw [argmax_eq_none, filter_eq_nil_iff] at hTip
  cases hFind : storage.findTopicBlockAnchor topic height with
  | none => rfl
  | some found =>
    rcases mem_of_findTopicBlockAnchor hFind with ⟨hIn, hTopic, _⟩
    exact absurd (by simpa using hTopic) (hTip found hIn)

theorem findTopicAnchorTip_eq_some (hTip : storage.findTopicAnchorTip topic = some anchor) :
  (storage.findTopicBlockAnchor topic anchor.blockHeight).isSome ∧
    ∀ height, (storage.findTopicBlockAnchor topic height).isSome →
        height ≤ anchor.blockHeight := by
  unfold findTopicAnchorTip at hTip
  have hIn := argmax_mem hTip
  rw [mem_filter] at hIn
  have hTopic : anchor.topic = topic := by simpa using hIn.2
  constructor
  · rw [← hTopic]
    exact isSome_findTopicBlockAnchor hIn.1
  · intro height hSome
    rcases isSome_iff_exists.mp hSome with ⟨found, hFind⟩
    rcases mem_of_findTopicBlockAnchor hFind with ⟨hFound, hSame, hHeight⟩
    rw [← hHeight]
    apply le_of_mem_argmax _ hTip
    rw [mem_filter]
    exact ⟨hFound, by simpa using hSame⟩

structure SameTopic (topic : JsString) (storage after : AnchorStorage) : Prop where
  admitted : admittedAt after topic = admittedAt storage topic
  anchors : after.findTopicBlockAnchor topic = storage.findTopicBlockAnchor topic

theorem SameTopic.refl (topic : JsString) (storage : AnchorStorage) :
  SameTopic topic storage storage :=
  ⟨rfl, rfl⟩

theorem SameTopic.trans {first second third : AnchorStorage} (hFst : SameTopic topic first second)
  (hSnd : SameTopic topic second third) : SameTopic topic first third :=
  ⟨hSnd.admitted.trans hFst.admitted, hSnd.anchors.trans hFst.anchors⟩

-- Passes

def RootCurrent (storage : AnchorStorage) (topic : JsString) (anchor : TopicBlockAnchor) : Prop :=
  computeBasmRoot (admittedAt storage topic anchor.blockHeight) = .ok anchor.basmRoot

def Passes
  (env : AnchorEnv) (storage : AnchorStorage) (topic : JsString) (hints : List (Nat × HashHex))
  (force : Bool) (height : Nat) : Prop :=
  (passBlockHash env storage topic hints force height).isSome ∧
    ∃ root, computeBasmRoot (admittedAt storage topic height) = .ok root

structure PassWrites
  (env : AnchorEnv) (storage : AnchorStorage) (topic : JsString) (hints : List (Nat × HashHex))
  (force : Bool) (prevTac : HashHex) (first stop : Nat) (after : AnchorStorage) : Prop where
  admitted : admittedAt after topic = admittedAt storage topic
  others : ∀ other, other ≠ topic → SameTopic other storage after
  kept : ∀ height, ¬(first ≤ height ∧ height < stop) →
      after.findTopicBlockAnchor topic height = storage.findTopicBlockAnchor topic height
  written : ∀ height, first ≤ height → height < stop → ∃ anchor,
        after.findTopicBlockAnchor topic height = some anchor ∧
          passBlockHash env storage topic hints force height = some anchor.blockHash ∧
          RootCurrent storage topic anchor ∧ ∃ prev, (height = first → prev = prevTac) ∧
              (first < height → ∃ below, after.findTopicBlockAnchor topic
                    (height - 1) = some below ∧
                  prev = below.tac) ∧
              anchor.tac = computeTac prev anchor.blockHash anchor.basmRoot

variable {env : AnchorEnv} {topic : JsString} {hints : List (Nat × HashHex)} {force : Bool}
variable {height count : Nat} {prevTac : HashHex}

theorem passBlockHash_upsert (hNe : anchor.blockHeight ≠ height) :
  passBlockHash env (storage.upsertTopicBlockAnchor anchor) topic hints force height =
    passBlockHash env storage topic hints force height := by
  have hFind : (storage.upsertTopicBlockAnchor anchor).findTopicBlockAnchor topic height =
        storage.findTopicBlockAnchor topic height := by
    rw [findTopicBlockAnchor_upsert, if_neg fun hKey => hNe hKey.2]
  unfold passBlockHash
  rw [hFind]

theorem PassWrites.refl :
  PassWrites env storage topic hints force prevTac height height storage where
  admitted := rfl
  others := fun _ _ => .refl _ _
  kept := fun _ _ => rfl
  written := fun _ hFst hStop => absurd hFst (Nat.not_le.mpr hStop)

theorem PassWrites.cons
  {blockHash basmRoot : HashHex} {admittedCount stop : Nat} {after : AnchorStorage}
  (hHash : passBlockHash env storage topic hints force height = some blockHash)
  (hRoot : computeBasmRoot (admittedAt storage topic height) = .ok basmRoot)
  (hStop : height + 1 ≤ stop) (hRest : PassWrites env (storage.upsertTopicBlockAnchor
        { topic := topic
          blockHeight := height
          blockHash := blockHash
          basmRoot := basmRoot
          admittedCount := admittedCount
          tac := computeTac prevTac blockHash basmRoot })
      topic hints force (computeTac prevTac blockHash basmRoot) (height + 1) stop after) :
  PassWrites env storage topic hints force prevTac height stop after := by
  have hStore := hRest.kept height (by omega)
  rw [findTopicBlockAnchor_upsert, if_pos ⟨rfl, rfl⟩] at hStore
  constructor
  · exact hRest.admitted
  · intro other hNe
    apply SameTopic.trans _ (hRest.others other hNe)
    constructor
    · rfl
    · funext level
      rw [findTopicBlockAnchor_upsert, if_neg fun hKey => hNe hKey.1.symm]
  · intro level hOutside
    rw [hRest.kept level (by omega), findTopicBlockAnchor_upsert, if_neg]
    rintro ⟨_, hSame⟩
    simp only at hSame
    omega
  · intro level hFst hLevel
    by_cases hSame : level = height
    · rw [hSame, hStore]
      refine ⟨_, rfl, hHash, hRoot, prevTac, ?_, ?_, rfl⟩
      · exact fun _ => rfl
      · intro hLess
        omega
    · rcases hRest.written level (by omega) hLevel with
        ⟨found, hFind, hFoundHash, hCur, prev, hPrev, hBelow, hTac⟩
      rw [passBlockHash_upsert (by simp only; omega)] at hFoundHash
      refine ⟨found, hFind, hFoundHash, hCur, prev, ?_, ?_, hTac⟩
      · intro hEq
        omega
      · intro hLess
        by_cases hNext : level = height + 1
        · rw [hNext, Nat.add_sub_cancel, hStore]
          exact ⟨_, rfl, hPrev hNext⟩
        · exact hBelow (by omega)

theorem passes_upsert_iff (hNe : anchor.blockHeight ≠ height) :
  Passes env (storage.upsertTopicBlockAnchor anchor) topic hints force height ↔
    Passes env storage topic hints force height := by
  unfold Passes
  rw [passBlockHash_upsert hNe]
  rfl

theorem readThe_run (env : AnchorEnv) (storage : AnchorStorage) :
  (readThe AnchorEnv : AnchorM AnchorEnv) env storage = .ok env storage := rfl

theorem rebuildHeights_halt (hHash : passBlockHash env storage topic hints force height = none) :
  rebuildHeights topic hints force (count + 1) height prevTac env storage = .ok () storage := by
  rw [rebuildHeights]
  simp only [StateProgram.bind_run, StateProgram.get_run, readThe_run, hHash]
  rfl

theorem rebuildHeights_throw {blockHash : HashHex} {error : JsError}
  (hHash : passBlockHash env storage topic hints force height = some blockHash)
  (hRoot : computeBasmRoot (admittedAt storage topic height) = .error error) :
  rebuildHeights topic hints force (count + 1) height prevTac env storage =
    .error error storage := by
  rw [rebuildHeights]
  simp only [StateProgram.bind_run, StateProgram.get_run, readThe_run, hHash, hRoot]
  rfl

theorem rebuildHeights_store {blockHash basmRoot : HashHex}
  (hHash : passBlockHash env storage topic hints force height = some blockHash)
  (hRoot : computeBasmRoot (admittedAt storage topic height) = .ok basmRoot) :
  rebuildHeights topic hints force (count + 1) height prevTac env storage =
    rebuildHeights topic hints force count (height + 1)
      (computeTac prevTac blockHash basmRoot) env (storage.upsertTopicBlockAnchor
        { topic := topic
          blockHeight := height
          blockHash := blockHash
          basmRoot := basmRoot
          admittedCount := (admittedAt storage topic height).length
          tac := computeTac prevTac blockHash basmRoot }) := by
  rw [rebuildHeights]
  simp only [StateProgram.bind_run, StateProgram.get_run, readThe_run, hHash, hRoot]
  rfl

theorem rebuildHeights_spec
  (env : AnchorEnv) (topic : JsString) (hints : List (Nat × HashHex)) (force : Bool)
  (count height : Nat) (prevTac : HashHex) (storage : AnchorStorage) :
  ∃ stop, height ≤ stop ∧ stop ≤ height + count ∧
    PassWrites env storage topic hints force prevTac height stop
      (finalState (rebuildHeights topic hints force count height prevTac env storage)) ∧
    (∀ level, height ≤ level → level < stop → Passes env storage topic hints force level) ∧
    (stop < height + count → ¬Passes env storage topic hints force stop) ∧
    ((∃ error after, rebuildHeights topic hints force count height
          prevTac env storage = .error error after) ↔
      stop < height + count ∧ (passBlockHash env storage topic hints force stop).isSome) := by
  induction count generalizing height prevTac storage with
  | zero =>
    refine ⟨height, by omega, by omega, .refl, ?_, ?_, ?_⟩
    · intro level hFst hLevel
      omega
    · intro hLess
      omega
    · constructor
      · rintro ⟨_, _, hError⟩
        cases hError
      · rintro ⟨hLess, _⟩
        omega
  | succ count ih =>
    cases hHash : passBlockHash env storage topic hints force height with
    | none =>
      rw [rebuildHeights_halt hHash]
      refine ⟨height, by omega, by omega, .refl, ?_, ?_, ?_⟩
      · intro level hFst hLevel
        omega
      · intro _ hPasses
        rw [Passes, hHash] at hPasses
        cases hPasses.1
      · rw [hHash]
        constructor
        · rintro ⟨_, _, hError⟩
          cases hError
        · rintro ⟨_, hSome⟩
          cases hSome
    | some blockHash =>
      cases hRoot : computeBasmRoot (admittedAt storage topic height) with
      | error thrown =>
        rw [rebuildHeights_throw hHash hRoot]
        refine ⟨height, by omega, by omega, .refl, ?_, ?_, ?_⟩
        · intro level hFst hLevel
          omega
        · intro _ hPasses
          rcases hPasses.2 with ⟨root, hValid⟩
          rw [hRoot] at hValid
          cases hValid
        · rw [hHash]
          constructor
          · intro _
            exact ⟨by omega, rfl⟩
          · intro _
            exact ⟨thrown, storage, rfl⟩
      | ok basmRoot =>
        rw [rebuildHeights_store hHash hRoot]
        have hPasses : Passes env storage topic hints force
              height := by
          rw [Passes, hHash]
          exact ⟨rfl, basmRoot, hRoot⟩
        rcases ih (height + 1) (computeTac prevTac blockHash basmRoot)
          (storage.upsertTopicBlockAnchor
            { topic := topic
              blockHeight := height
              blockHash := blockHash
              basmRoot := basmRoot
              admittedCount := (admittedAt storage topic height).length
              tac := computeTac prevTac blockHash basmRoot }) with
          ⟨stop, hFst, hLast, hWrites, hPassed, hEnd, hThrow⟩
        refine ⟨stop, by omega, by omega, hWrites.cons hHash hRoot hFst, ?_, ?_, ?_⟩
        · intro level hLow hHigh
          by_cases hSame : level = height
          · rw [hSame]
            exact hPasses
          · have hAfter := hPassed level (by omega) hHigh
            rwa [passes_upsert_iff (by simp only; omega)] at hAfter
        · intro hLess hStop
          apply hEnd (by omega)
          rw [passes_upsert_iff (by simp only; omega)]
          exact hStop
        · rw [passBlockHash_upsert (by simp only; omega)] at hThrow
          rw [hThrow, Nat.add_right_comm, Nat.add_assoc height]

-- Slices

/- The arguments of a rebuild. -/
structure AnchorPass where
  topic : JsString
  fromHeight : Nat
  toHeight : Nat
  blockHashHints : List (Nat × HashHex)
  forceResolve : Bool

namespace AnchorPass

variable (pass : AnchorPass)

def run : AnchorM Unit :=
  rebuildTopicAnchorChain pass.topic pass.fromHeight
    pass.toHeight pass.blockHashHints pass.forceResolve

def Valid : Prop :=
  checkRebuild pass.topic pass.fromHeight pass.toHeight pass.blockHashHints = .ok ()

def Covers (height : Nat) : Prop :=
  pass.fromHeight ≤ height ∧ height ≤ passEnd pass.fromHeight pass.toHeight

def blockHashAt (env : AnchorEnv) (storage : AnchorStorage)
  (height : Nat) : Option HashHex :=
  passBlockHash env storage pass.topic pass.blockHashHints pass.forceResolve height

def PassesAt (env : AnchorEnv) (storage : AnchorStorage) (height : Nat) : Prop :=
  Passes env storage pass.topic pass.blockHashHints pass.forceResolve height

def Reaches (env : AnchorEnv) (storage : AnchorStorage) (height : Nat) : Prop :=
  pass.Valid ∧ pass.Covers height ∧ ∀ level, pass.fromHeight ≤ level → level ≤ height →
      pass.PassesAt env storage level

def Throws (env : AnchorEnv) (storage : AnchorStorage) : Prop :=
  pass.Valid → ∃ height, pass.Covers height ∧ (∀ level, pass.fromHeight ≤ level → level < height →
        pass.PassesAt env storage level) ∧
      (pass.blockHashAt env storage height).isSome ∧ ¬pass.PassesAt env storage height

variable {pass : AnchorPass} {storage after : AnchorStorage}

structure Ends (pass : AnchorPass) (env : AnchorEnv) (storage : AnchorStorage) (stop : Nat)
  (after : AnchorStorage) : Prop where
  first_le : pass.fromHeight ≤ stop
  reaches_iff : ∀ height, pass.Reaches env storage height ↔ pass.fromHeight ≤ height ∧ height < stop
  writes : PassWrites env storage pass.topic pass.blockHashHints pass.forceResolve
      (previousTac storage pass.topic pass.fromHeight) pass.fromHeight stop after

theorem run_of_not_valid (hValid : ¬pass.Valid) :
  ∃ error, pass.run env storage = .error error storage := by
  unfold run rebuildTopicAnchorChain
  unfold Valid at hValid
  cases hCheck : checkRebuild pass.topic pass.fromHeight pass.toHeight pass.blockHashHints with
  | ok value => exact absurd hCheck hValid
  | error error => exact ⟨error, rfl⟩

/- Nothing is covered by an empty slice. -/
theorem passEnd_of_lt {fromHeight toHeight : Nat} (hLess : toHeight < fromHeight) :
  passEnd fromHeight toHeight = toHeight := by
  unfold passEnd DEFAULT_BASM_RANGE_LIMIT
  rw [if_neg]
  omega

theorem run_of_valid (hValid : pass.Valid) :
  pass.run env storage = rebuildHeights pass.topic pass.blockHashHints pass.forceResolve
      (passEnd pass.fromHeight pass.toHeight + 1 - pass.fromHeight) pass.fromHeight
      (previousTac storage pass.topic pass.fromHeight) env
      storage := by
  unfold Valid at hValid
  unfold run rebuildTopicAnchorChain
  simp only [StateProgram.bind_run, hValid]
  by_cases hLess : pass.toHeight < pass.fromHeight
  · have hCount : passEnd pass.fromHeight pass.toHeight + 1 - pass.fromHeight = 0 := by
      rw [passEnd_of_lt hLess]
      omega
    rw [hCount, if_pos hLess]
    rfl
  · rw [if_neg hLess]
    rfl

theorem run_spec (pass : AnchorPass) (env : AnchorEnv) (storage : AnchorStorage) :
  (∃ stop, pass.Ends env storage stop (finalState (pass.run env storage))) ∧
    ((∃ error after, pass.run env storage = .error error after) ↔ pass.Throws env storage) := by
  by_cases hValid : pass.Valid
  · rw [run_of_valid hValid]
    rcases rebuildHeights_spec env pass.topic pass.blockHashHints pass.forceResolve
      (passEnd pass.fromHeight pass.toHeight + 1 - pass.fromHeight) pass.fromHeight
      (previousTac storage pass.topic pass.fromHeight) storage with
      ⟨stop, hFst, hLast, hWrites, hPassed, hEnd, hThrow⟩
    constructor
    · refine ⟨stop, hFst, ?_, hWrites⟩
      intro height
      constructor
      · rintro ⟨_, ⟨hLow, hHigh⟩, hAll⟩
        refine ⟨hLow, ?_⟩
        by_contra hNot
        exact hEnd (by omega) (hAll stop hFst (by omega))
      · rintro ⟨hLow, hHigh⟩
        refine ⟨hValid, ⟨hLow, by omega⟩, ?_⟩
        intro level hLevel hUpTo
        exact hPassed level hLevel (by omega)
    · rw [hThrow]
      constructor
      · rintro ⟨hLess, hSome⟩ _
        exact ⟨stop, ⟨hFst, by omega⟩, hPassed, hSome, hEnd hLess⟩
      · intro hThrows
        rcases hThrows hValid with ⟨height, ⟨hLow, hHigh⟩, hBelow, hSome, hNot⟩
        have hSame : height = stop := by
          by_contra hNe
          rcases Nat.lt_or_gt_of_ne hNe with hLess | hMore
          · exact hNot (hPassed height hLow hLess)
          · exact hEnd (by omega) (hBelow stop hFst hMore)
        rw [← hSame]
        exact ⟨by omega, hSome⟩
  · rcases run_of_not_valid hValid with ⟨error, hRun⟩
    rw [hRun]
    constructor
    · refine ⟨pass.fromHeight, by omega, ?_, .refl⟩
      intro height
      constructor
      · rintro ⟨hOk, _⟩
        exact absurd hOk hValid
      · rintro ⟨hLow, hHigh⟩
        omega
    · constructor
      · intro _ hOk
        exact absurd hOk hValid
      · intro _
        exact ⟨error, storage, rfl⟩

end AnchorPass

-- Chains

def tacBelow (prev : Option TopicBlockAnchor) : HashHex :=
  (prev.map (·.tac)).getD BASM_ZERO_HASH

def AnchorLinks (prev : Option TopicBlockAnchor) (anchor : TopicBlockAnchor) : Prop :=
  anchor.tac = computeTac (tacBelow prev) anchor.blockHash anchor.basmRoot

def LinkedAnchors (storage : AnchorStorage) (topic : JsString) : Prop :=
  LinkedInterval AnchorLinks (storage.findTopicBlockAnchor topic)

def RootsCurrent (storage : AnchorStorage) (topic : JsString) : Prop :=
  ∀ height anchor, storage.findTopicBlockAnchor topic height = some anchor →
      RootCurrent storage topic anchor

structure AnchorChain (storage : AnchorStorage) (topic : JsString) : Prop where
  linked : LinkedAnchors storage topic
  current : RootsCurrent storage topic

def AnchorPass.Meets (pass : AnchorPass) (storage : AnchorStorage) : Prop :=
  ∀ height, (storage.findTopicBlockAnchor pass.topic height).isSome →
      ∃ near, (storage.findTopicBlockAnchor pass.topic near).isSome ∧ pass.fromHeight ≤ near + 1

def AnchorPass.Repeats (pass : AnchorPass) (env : AnchorEnv) (storage : AnchorStorage) : Prop :=
  ∀ height, pass.Reaches env storage height → ∃ anchor,
      storage.findTopicBlockAnchor pass.topic height = some anchor ∧
        pass.blockHashAt env storage height = some anchor.blockHash ∧
        RootCurrent storage pass.topic anchor

/-
  The roots a pass does not reach are current, and it gets
  to the top of the chain or stores what is there.
-/
structure SafePass (env : AnchorEnv) (storage : AnchorStorage) (pass : AnchorPass) : Prop where
  current : ∀ height anchor, storage.findTopicBlockAnchor pass.topic height = some anchor →
        ¬pass.Reaches env storage height → RootCurrent storage pass.topic anchor
  above : (∀ height, (storage.findTopicBlockAnchor pass.topic height).isSome →
        pass.fromHeight ≤ height → pass.Reaches env storage height) ∨
      pass.Repeats env storage

variable {storage after : AnchorStorage} {pass : AnchorPass} {stop : Nat}

theorem previousTac_eq_tacBelow (storage : AnchorStorage) (topic : JsString) (height : Nat) :
  previousTac storage topic height = tacBelow (itemBelow (storage.findTopicBlockAnchor topic)
        height) := by
  cases height with
  | zero => rfl
  | succ below =>
    simp only [previousTac, itemBelow, tacBelow]
    cases storage.findTopicBlockAnchor topic below with
    | none => rfl
    | some anchor => rfl

theorem AnchorPass.Ends.splice (hEnds : pass.Ends env storage stop after) :
  Splice AnchorLinks pass.fromHeight stop (storage.findTopicBlockAnchor pass.topic)
    (after.findTopicBlockAnchor pass.topic) := by
  constructor
  · intro height hFst hStop
    rcases hEnds.writes.written height hFst hStop with
      ⟨anchor, hFind, _, _, prev, hPrev, hBelow, hTac⟩
    refine ⟨anchor, hFind, ?_⟩
    have hSame : prev = tacBelow (itemBelow (after.findTopicBlockAnchor pass.topic) height) := by
      by_cases hStart : height = pass.fromHeight
      · rw [hPrev hStart, previousTac_eq_tacBelow, ← hStart]
        congr 1
        cases height with
        | zero => rfl
        | succ below => exact (hEnds.writes.kept below (by omega)).symm
      · rcases hBelow (by omega) with ⟨below, hBelowFind, hPrevTac⟩
        cases height with
        | zero => omega
        | succ level =>
          rw [Nat.add_sub_cancel] at hBelowFind
          rw [itemBelow, hBelowFind]
          exact hPrevTac
    rw [AnchorLinks, ← hSame]
    exact hTac
  · intro height hOutside
    exact hEnds.writes.kept height hOutside

/- The hash an item hangs on is that of the item below. -/
theorem tacBelow_congr
  {first second : Option TopicBlockAnchor} (hSame : first.map (·.tac) = second.map (·.tac)) :
  tacBelow first = tacBelow second := by
  unfold tacBelow
  rw [hSame]

section

variable (hEnds : pass.Ends env storage stop after)
include hEnds

section

variable (hRepeats : pass.Repeats env storage) (hLinked : LinkedAnchors storage pass.topic)

include hRepeats hLinked

theorem AnchorPass.Ends.tac_eq_of_below (hFst : pass.fromHeight ≤ height) (hStop : height < stop)
  (hBelow : (itemBelow (after.findTopicBlockAnchor pass.topic) height).map (·.tac) =
      (itemBelow (storage.findTopicBlockAnchor pass.topic) height).map (·.tac)) :
  (after.findTopicBlockAnchor pass.topic height).map (·.tac) =
    (storage.findTopicBlockAnchor pass.topic height).map (·.tac) := by
  have hReaches := (hEnds.reaches_iff height).mpr ⟨hFst, hStop⟩
  rcases hRepeats height hReaches with ⟨anchor, hFind, hHash, hCur⟩
  rcases hEnds.writes.written height hFst hStop with
    ⟨stored, hStore, hStoreHash, hStoreRoot, _⟩
  have hLinks := hLinked.linked height anchor hFind
  rcases hEnds.splice.written height hFst hStop with ⟨found, hFound, hNewLinks⟩
  rw [hStore] at hFound
  cases hFound
  have hSameHash : stored.blockHash = anchor.blockHash := by
    unfold AnchorPass.blockHashAt at hHash
    rw [hHash] at hStoreHash
    exact (some.inj hStoreHash).symm
  have hSameRoot : stored.basmRoot = anchor.basmRoot := by
    unfold RootCurrent at hCur hStoreRoot
    rw [(mem_of_findTopicBlockAnchor hFind).2.2] at hCur
    rw [(mem_of_findTopicBlockAnchor hStore).2.2, hCur] at hStoreRoot
    exact (Except.ok.inj hStoreRoot).symm
  rw [hStore, hFind, map_some, map_some]
  unfold AnchorLinks at hLinks hNewLinks
  rw [hNewLinks, hLinks, hSameHash, hSameRoot, tacBelow_congr hBelow]

theorem AnchorPass.Ends.tac_eq (height : Nat) (hStop : height < stop) :
  (after.findTopicBlockAnchor pass.topic height).map (·.tac) =
    (storage.findTopicBlockAnchor pass.topic height).map (·.tac) := by
  induction height with
  | zero =>
    by_cases hFst : pass.fromHeight ≤ 0
    · exact hEnds.tac_eq_of_below hRepeats hLinked hFst hStop rfl
    · rw [hEnds.writes.kept 0 fun hIn => hFst hIn.1]
  | succ height ih =>
    by_cases hFst : pass.fromHeight ≤ height + 1
    · exact hEnds.tac_eq_of_below hRepeats hLinked hFst hStop (ih (by omega))
    · rw [hEnds.writes.kept (height + 1) fun hIn => hFst hIn.1]

end

section

variable (hSafe : SafePass env storage pass) (hLinked : LinkedAnchors storage pass.topic)

include hSafe hLinked

theorem AnchorPass.Ends.joint (hFst : pass.fromHeight < stop)
  (hFind : storage.findTopicBlockAnchor pass.topic stop = some anchor) :
  AnchorLinks (itemBelow (after.findTopicBlockAnchor pass.topic) stop)
    anchor := by
  rcases hSafe.above with hReached | hRepeats
  · have hReaches := hReached stop (by rw [hFind]; rfl) (by omega)
    have hLess := ((hEnds.reaches_iff stop).mp hReaches).2
    omega
  · have hLinks := hLinked.linked stop anchor hFind
    unfold AnchorLinks at hLinks ⊢
    rw [hLinks]
    congr 1
    apply tacBelow_congr
    cases stop with
    | zero => rfl
    | succ below => exact (hEnds.tac_eq hRepeats hLinked below (by omega)).symm

theorem AnchorPass.Ends.isSome_stop
  (hSome : (storage.findTopicBlockAnchor pass.topic height).isSome)
  (hFst : pass.fromHeight < stop) (hStop : stop ≤ height) :
  (storage.findTopicBlockAnchor pass.topic stop).isSome := by
  rcases hSafe.above with hReached | hRepeats
  · have hReaches := hReached height hSome (by omega)
    have hLess := ((hEnds.reaches_iff height).mp hReaches).2
    omega
  · -- the last anchor of the slice was there before
    have hReaches := (hEnds.reaches_iff (stop - 1)).mpr ⟨by omega, by omega⟩
    rcases hRepeats (stop - 1) hReaches with ⟨anchor, hFind, _⟩
    exact hLinked.contiguous (stop - 1) stop height (by omega) hStop (by rw [hFind]; rfl) hSome

end

theorem anchorChain_of_pass (hLinked : LinkedAnchors storage pass.topic)
  (hMeets : pass.Meets storage) (hSafe : SafePass env storage pass) :
  AnchorChain after pass.topic := by
  constructor
  · apply hLinked.splice hEnds.splice hMeets
    · intro height hSome hFst hStop
      exact hEnds.isSome_stop hSafe hLinked hSome hFst hStop
    · intro anchor hFst hFind
      exact hEnds.joint hSafe hLinked hFst hFind
  · intro height anchor hFind
    have hSameRows :
        RootCurrent storage pass.topic anchor → RootCurrent after pass.topic anchor := by
      intro hCur
      unfold RootCurrent at hCur ⊢
      rw [hEnds.writes.admitted]
      exact hCur
    apply hSameRows
    by_cases hIn : pass.fromHeight ≤ height ∧ height < stop
    · rcases hEnds.writes.written height hIn.1 hIn.2 with ⟨stored, hStore, _, hCur, _⟩
      rw [hFind] at hStore
      cases hStore
      exact hCur
    · rw [hEnds.writes.kept height hIn] at hFind
      apply hSafe.current height anchor hFind
      rw [hEnds.reaches_iff height]
      exact hIn

end

end TsStack.Overlay
