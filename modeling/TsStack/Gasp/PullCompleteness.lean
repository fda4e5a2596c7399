import Mathlib.Data.List.Nodup
import Mathlib.Data.List.Perm.Subperm
import TsStack.Gasp.Sync

/-
  Completeness of the pull half of `GASP.sync`.

  Against a remote that serves a fixed list in order of the
  scores, a run that does not throw attempts every output it
  does not know, requests no output twice, keeps its cursor
  below every failure and ends.
-/

-- The Statement

open List

namespace TsStack.Gasp

structure ServesInOrder (config : SyncConfig) (utxos : List GASPOutput) : Prop where
  sorted : utxos.Pairwise fun left right => left.score ≤ right.score
  distinct : (utxos.map (·.toOutpoint)).Nodup
  answers : ∀ since limit, ∃ remoteSince, config.getInitialResponse since limit = .ok
          { since := remoteSince
            UTXOList := (utxos.filter (since ≤ ·.score)).take limit }

def SyncPhase.IsOver : SyncPhase → Prop
| .finished _ => True
| .threw _ => True
| _ => False

structure PullResult
  (config : SyncConfig) (utxos : List GASPOutput) (start state : SyncState) : Prop where
  requested_once : (state.requested.map (·.toOutpoint)).Nodup
  attempts_requested : ∀ attempt ∈ state.attempts, attempt.1 ∈ state.requested
  complete : ∀ outgoing, state.phase = .finished outgoing →
      ∀ utxo ∈ utxos, start.lastInteraction ≤ utxo.score → utxo.toOutpoint ∈ start.knownOutpoints ∨
          (utxo, .completed) ∈ state.attempts ∨ (utxo, .failed) ∈ state.attempts
  cursor_ge : start.lastInteraction ≤ state.lastInteraction
  cursor_mono : ∀ next, SyncStep config state next → state.lastInteraction ≤ next.lastInteraction
  cursor_le_failed : ∀ utxo, (utxo, .failed) ∈ state.attempts → state.lastInteraction ≤ utxo.score
  progress : state.phase.IsOver ∨ ∃ next, SyncStep config state next
  terminates : Acc (fun next state => SyncStep config state next) state

variable {items : List GASPOutput}

theorem validateUTXOsFrom_distinct
  {index : Nat} {seen : List Outpoint} (hValid : validateUTXOsFrom index seen items = .ok ()) :
  (items.map (·.toOutpoint)).Nodup ∧ ∀ item ∈ items, item.toOutpoint ∉ seen := by
  induction items generalizing index seen with
  | nil => simp
  | cons item items ih =>
    unfold validateUTXOsFrom at hValid
    rcases bind_eq_ok_iff.mp hValid with ⟨_, _, hValid⟩
    rcases bind_eq_ok_iff.mp hValid with ⟨_, _, hValid⟩
    rcases bind_eq_ok_iff.mp hValid with ⟨_, _, hValid⟩
    split_ifs at hValid with hSeen
    rcases ih hValid with ⟨hNodup, hFresh⟩
    constructor
    · rw [map_cons, nodup_cons]
      refine ⟨?_, hNodup⟩
      intro hIn
      rcases List.mem_map.mp hIn with ⟨other, hOther, hEq⟩
      apply hFresh other hOther
      rw [hEq]
      exact mem_cons_self
    · intro other hOther
      rcases mem_cons.mp hOther with rfl | hTail
      · exact hSeen
      · exact fun hIn => hFresh other hTail (mem_cons_of_mem _ hIn)

theorem validateUTXOList_eq_ok {value accepted : List GASPOutput} {maxItems : Nat}
  (hValid : validateUTXOList value maxItems = .ok accepted) :
  accepted = value ∧ value.length ≤ maxItems ∧ (value.map (·.toOutpoint)).Nodup := by
  unfold validateUTXOList at hValid
  split_ifs at hValid with hLong
  rcases bind_eq_ok_iff.mp hValid with ⟨_, hItems, hEq⟩
  cases hEq
  exact ⟨rfl, Nat.le_of_not_gt hLong, (validateUTXOsFrom_distinct hItems).1⟩

theorem requestPage_eq_ok
  {config : SyncConfig} {utxos : List GASPOutput} (hServes : ServesInOrder config utxos)
  {since : Nat} {response : InitialResponse} (hPage : requestPage config since = .ok response) :
  response.UTXOList = (utxos.filter (since ≤ ·.score)).take config.effectiveLimit ∧
    1 ≤ config.effectiveLimit := by
  rcases hServes.answers since config.effectiveLimit with ⟨remoteSince, hAnswer⟩
  rcases bind_eq_ok_iff.mp hPage with ⟨_, _, hPage⟩
  rcases bind_eq_ok_iff.mp hPage with ⟨_, hLimit, hPage⟩
  rcases bind_eq_ok_iff.mp hPage with ⟨answer, hEq, hPage⟩
  rw [hAnswer] at hEq
  cases hEq
  rcases bind_eq_ok_iff.mp hPage with ⟨_, _, hPage⟩
  rcases bind_eq_ok_iff.mp hPage with ⟨accepted, hList, hEq⟩
  cases hEq
  constructor
  · exact (validateUTXOList_eq_ok hList).1
  · unfold validateLimit at hLimit
    split_ifs at hLimit with hBad
    omega

-- The Loop over a Page

/- What the loop over a page with distinct outpoints does. -/
structure TurnsTo (items : List GASPOutput) (before after : Classified) : Prop where
  known : ∀ outpoint ∈ after.knownOutpoints, outpoint ∈ before.knownOutpoints
  shared : ∀ outpoint ∈ after.sharedOutpoints, outpoint ∈ before.sharedOutpoints ∨
        outpoint ∈ before.knownOutpoints
  shared_mono : ∀ outpoint ∈ before.sharedOutpoints, outpoint ∈ after.sharedOutpoints
  queue :
    after.ingestQueue = before.ingestQueue ++ items.filter fun item =>
          item.toOutpoint ∉ before.knownOutpoints ∧ item.toOutpoint ∉ before.sharedOutpoints
  score_ge : before.pageMaxScore ≤ after.pageMaxScore
  scores_le : ∀ item ∈ items, item.score ≤ after.pageMaxScore
  score_eq :
    after.pageMaxScore = before.pageMaxScore ∨ ∃ item ∈ items, item.score = after.pageMaxScore

theorem turn_of_ne (before : Classified) {item : GASPOutput} {outpoint : Outpoint}
  (hNe : outpoint ≠ item.toOutpoint) :
  (outpoint ∈ (before.turn item).knownOutpoints ↔ outpoint ∈ before.knownOutpoints) ∧
    (outpoint ∈ (before.turn item).sharedOutpoints ↔ outpoint ∈ before.sharedOutpoints) := by
  unfold Classified.turn
  simp only
  split_ifs
  · constructor
    · simp [hNe]
    · simp [hNe]
  · exact ⟨Iff.rfl, Iff.rfl⟩
  · exact ⟨Iff.rfl, Iff.rfl⟩

theorem turn_spec (before : Classified) (item : GASPOutput) :
  TurnsTo [item] before (before.turn item) := by
  unfold Classified.turn
  simp only
  split_ifs with hKnown hFresh
  · constructor
    · intro outpoint hIn
      exact mem_of_mem_filter hIn
    · intro outpoint hIn
      rcases mem_concat_iff.mp hIn with hOld | hNew
      · exact .inl hOld
      · rw [hNew]
        exact .inr hKnown
    · intro outpoint hIn
      exact mem_append_left _ hIn
    · simp [hKnown]
    · exact Nat.le_max_left _ _
    · intro other hOther
      rw [mem_singleton.mp hOther]
      exact Nat.le_max_right _ _
    · simp only [mem_singleton, exists_eq_left]
      omega
  · constructor
    · exact fun _ hIn => hIn
    · exact fun _ hIn => .inl hIn
    · exact fun _ hIn => hIn
    · simp [hKnown, hFresh]
    · exact Nat.le_max_left _ _
    · intro other hOther
      rw [mem_singleton.mp hOther]
      exact Nat.le_max_right _ _
    · simp only [mem_singleton, exists_eq_left]
      omega
  · constructor
    · exact fun _ hIn => hIn
    · exact fun _ hIn => .inl hIn
    · exact fun _ hIn => hIn
    · simp [hKnown, hFresh]
    · exact Nat.le_max_left _ _
    · intro other hOther
      rw [mem_singleton.mp hOther]
      exact Nat.le_max_right _ _
    · simp only [mem_singleton, exists_eq_left]
      omega

theorem foldl_turn_spec (hDist : (items.map (·.toOutpoint)).Nodup) (before : Classified) :
  TurnsTo items before (items.foldl Classified.turn before) := by
  induction items generalizing before with
  | nil =>
    constructor
    all_goals simp
    exact fun _ hIn => .inl hIn
  | cons item items ih =>
    rw [map_cons, nodup_cons] at hDist
    have hTurn := turn_spec before item
    have hRest := ih hDist.2 (before.turn item)
    rw [foldl_cons]
    constructor
    · intro outpoint hIn
      exact hTurn.known outpoint (hRest.known outpoint hIn)
    · intro outpoint hIn
      rcases hRest.shared outpoint hIn with hShared | hKnown
      · exact hTurn.shared outpoint hShared
      · exact .inr (hTurn.known outpoint hKnown)
    · intro outpoint hIn
      exact hRest.shared_mono outpoint (hTurn.shared_mono outpoint hIn)
    · rw [hRest.queue, hTurn.queue, append_assoc,
        ← singleton_append (l := items), filter_append]
      congr 2
      apply filter_congr
      intro other hOther
      have hNe : other.toOutpoint ≠ item.toOutpoint := by
        intro hEq
        apply hDist.1
        rw [← hEq]
        exact List.mem_map_of_mem hOther
      have hSame := turn_of_ne before hNe
      simp only [hSame.1, hSame.2]
    · exact Nat.le_trans hTurn.score_ge hRest.score_ge
    · intro other hOther
      rcases mem_cons.mp hOther with rfl | hTail
      · exact Nat.le_trans (hTurn.scores_le other (mem_singleton_self _)) hRest.score_ge
      · exact hRest.scores_le other hTail
    · rcases hRest.score_eq with hSame | ⟨other, hOther, hEq⟩
      · rcases hTurn.score_eq with hOld | ⟨_, hIn, hEq⟩
        · exact .inl (hSame.trans hOld)
        · right
          rw [mem_singleton.mp hIn] at hEq
          exact ⟨item, mem_cons_self, hEq.trans hSame.symm⟩
      · exact .inr ⟨other, mem_cons_of_mem _ hOther, hEq⟩

-- The Invariant

variable {config : SyncConfig} {utxos : List GASPOutput} {start state : SyncState}

def Covered
  (utxos : List GASPOutput) (start : SyncState) (attempts : List (GASPOutput × IngestOutcome))
  (score : Nat) : Prop :=
  ∀ utxo ∈ utxos, start.lastInteraction ≤ utxo.score →
    utxo.score < score → utxo.toOutpoint ∈ start.knownOutpoints ∨ (utxo, .completed) ∈ attempts

structure AllCompleted
  (requested : List GASPOutput) (attempts : List (GASPOutput × IngestOutcome)) :
  Prop where
  requested : ∀ utxo ∈ requested, (utxo, .completed) ∈ attempts
  attempts : ∀ attempt ∈ attempts, attempt.2 = .completed

structure IngestInvariant
  (config : SyncConfig) (utxos : List GASPOutput) (start state : SyncState) (page : Page)
  (pool : TaskPool GASPOutput IngestOutcome) (requested queue : List GASPOutput)
  (attempts : List (GASPOutput × IngestOutcome)) :
  Prop where
  since_eq : page.since = state.lastInteraction
  list_eq :
    page.response.UTXOList = (utxos.filter (page.since ≤ ·.score)).take config.effectiveLimit
  covered : Covered utxos start attempts page.since
  earlier : AllCompleted requested attempts
  requested_eq : state.requested = requested ++ pool.begun
  attempts_eq : state.attempts = attempts ++ pool.settled
  serves : pool.Serves queue
  queue_once : (queue.map (·.toOutpoint)).Nodup
  queue_mem : ∀ utxo ∈ queue, utxo ∈ page.response.UTXOList
  queue_fresh : ∀ utxo ∈ queue, utxo.toOutpoint ∉ requested.map (·.toOutpoint)
  page_covered : ∀ utxo ∈ page.response.UTXOList, utxo.toOutpoint ∈ start.knownOutpoints ∨
        (utxo, .completed) ∈ attempts ∨ utxo ∈ queue
  failures : page.pageHadFailures = true ↔ ∃ attempt ∈ pool.settled, attempt.2 = .failed
  score_ge : page.since ≤ page.pageMaxScore
  score_eq :
    page.pageMaxScore = page.since ∨ ∃ utxo ∈ page.response.UTXOList, utxo.score = page.pageMaxScore

def PhaseInvariant
  (config : SyncConfig) (utxos : List GASPOutput) (start state : SyncState) : Prop :=
  match state.phase with
  | .request =>
    AllCompleted state.requested state.attempts ∧
      Covered utxos start state.attempts state.lastInteraction
  | .ingest page pool =>
    ∃ requested queue attempts, IngestInvariant config utxos start state page pool
        requested queue attempts
  | .finished _ =>
    ∀ utxo ∈ utxos, start.lastInteraction ≤ utxo.score → utxo.toOutpoint ∈ start.knownOutpoints ∨
        (utxo, .completed) ∈ state.attempts ∨ (utxo, .failed) ∈ state.attempts
  | .threw _ => True

structure SyncInvariant
  (config : SyncConfig) (utxos : List GASPOutput) (start state : SyncState) : Prop where
  cursor_ge : start.lastInteraction ≤ state.lastInteraction
  requested_once : (state.requested.map (·.toOutpoint)).Nodup
  requested_mem : ∀ utxo ∈ state.requested, utxo ∈ utxos
  attempts_requested : ∀ attempt ∈ state.attempts, attempt.1 ∈ state.requested
  known : ∀ outpoint ∈ state.knownOutpoints, outpoint ∈ start.knownOutpoints
  shared : ∀ outpoint ∈ state.sharedOutpoints, outpoint ∈ start.knownOutpoints ∨
        ∃ utxo, utxo.toOutpoint = outpoint ∧ (utxo, .completed) ∈ state.attempts
  completed_shared :
    ∀ utxo, (utxo, .completed) ∈ state.attempts → utxo.toOutpoint ∈ state.sharedOutpoints
  cursor_le_failed : ∀ utxo, (utxo, .failed) ∈ state.attempts → state.lastInteraction ≤ utxo.score
  phase : PhaseInvariant config utxos start state

theorem syncInvariant_begin
  (config : SyncConfig) (utxos : List GASPOutput) (lastInteraction : Nat) :
  SyncInvariant config utxos (beginSync config lastInteraction)
    (beginSync config lastInteraction) := by
  unfold beginSync
  simp only
  split
  · constructor
    all_goals simp [PhaseInvariant]
  · constructor
    all_goals simp [PhaseInvariant]
    · constructor
      · constructor
        all_goals simp
      · intro utxo _ hGe hLt
        exact absurd hGe (Nat.not_le.mpr hLt)

theorem ServesInOrder.eq_of_outpoint
  (hServes : ServesInOrder config utxos) {left right : GASPOutput} (hLeft : left ∈ utxos)
  (hRight : right ∈ utxos) (hEq : left.toOutpoint = right.toOutpoint) : left = right :=
  inj_on_of_nodup_map hServes.distinct hLeft hRight hEq

theorem SyncInvariant.receivePage
  (hServes : ServesInOrder config utxos) (hInv : SyncInvariant config utxos start state)
  (hPhase : state.phase = .request) :
  SyncInvariant config utxos start (receivePage config state) := by
  have hReq := hInv.phase
  unfold PhaseInvariant at hReq
  rw [hPhase] at hReq
  rcases hReq with ⟨hCompleted, hCovered⟩
  unfold Gasp.receivePage
  cases hPage : requestPage config state.lastInteraction with
  | error error => exact { hInv with phase := trivial }
  | ok response =>
    rcases requestPage_eq_ok hServes hPage with ⟨hList, _⟩
    have hSub : response.UTXOList.Sublist utxos := by
      rw [hList]
      exact (take_sublist _ _).trans filter_sublist
    have hDist := hServes.distinct.sublist (hSub.map (·.toOutpoint))
    have hTurns : TurnsTo response.UTXOList
          { knownOutpoints := state.knownOutpoints
            sharedOutpoints := state.sharedOutpoints
            ingestQueue := []
            pageMaxScore := state.lastInteraction }
          (classifyPage state response.UTXOList) :=
      foldl_turn_spec hDist _
    have hQueue := hTurns.queue
    rw [nil_append] at hQueue
    constructor
    · exact hInv.cursor_ge
    · exact hInv.requested_once
    · exact hInv.requested_mem
    · exact hInv.attempts_requested
    · intro outpoint hIn
      exact hInv.known outpoint (hTurns.known outpoint hIn)
    · intro outpoint hIn
      rcases hTurns.shared outpoint hIn with hOld | hKnown
      · exact hInv.shared outpoint hOld
      · exact .inl (hInv.known outpoint hKnown)
    · intro utxo hAttempt
      exact hTurns.shared_mono _ (hInv.completed_shared utxo hAttempt)
    · exact hInv.cursor_le_failed
    · refine ⟨state.requested, (classifyPage state response.UTXOList).ingestQueue,
          state.attempts, ?_⟩
      constructor
      · rfl
      · exact hList
      · exact hCovered
      · exact hCompleted
      · simp
      · simp
      · exact TaskPool.serves_start _
      · rw [hQueue]
        exact hDist.sublist (filter_sublist.map _)
      · intro utxo hIn
        rw [hQueue] at hIn
        exact mem_of_mem_filter hIn
      · intro utxo hIn hEarlier
        rw [hQueue, mem_filter] at hIn
        rcases List.mem_map.mp hEarlier with ⟨other, hOther, hEq⟩
        have hShared := hInv.completed_shared other (hCompleted.requested other hOther)
        rw [hEq] at hShared
        simp [hShared] at hIn
      · intro utxo hIn
        by_cases hKnown : utxo.toOutpoint ∈ state.knownOutpoints
        · exact .inl (hInv.known _ hKnown)
        · by_cases hShared : utxo.toOutpoint ∈ state.sharedOutpoints
          · rcases hInv.shared _ hShared with hStart | ⟨other, hEq, hAttempt⟩
            · exact .inl hStart
            · have hOther := hInv.requested_mem other (hInv.attempts_requested _ hAttempt)
              have hSame := hServes.eq_of_outpoint hOther (hSub.subset hIn) hEq
              rw [hSame] at hAttempt
              exact .inr (.inl hAttempt)
          · right
            right
            rw [hQueue, mem_filter]
            exact ⟨hIn, by simp [hKnown, hShared]⟩
      · simp
      · exact hTurns.score_ge
      · exact hTurns.score_eq

-- Ingest Tasks

variable {page : Page} {pool next : TaskPool GASPOutput IngestOutcome} {utxo : GASPOutput}

section

variable (hInv : SyncInvariant config utxos start state) (hPhase : state.phase = .ingest page pool)

include hInv hPhase

theorem SyncInvariant.ingest :
  ∃ requested queue attempts, IngestInvariant config utxos start state page pool
      requested queue attempts := by
  have hIngest := hInv.phase
  unfold PhaseInvariant at hIngest
  rw [hPhase] at hIngest
  exact hIngest

theorem SyncInvariant.begin (hBegins : pool.Begins (workers config) utxo next) :
  SyncInvariant config utxos start
    { state with
      phase := .ingest page next
      requested := state.requested ++ [utxo] } := by
  rcases hInv.ingest hPhase with ⟨requested, queue, attempts, hIngest⟩
  have hNext := hBegins.serves hIngest.serves
  have hReq : state.requested ++ [utxo] = requested ++ next.begun := by
    rw [hIngest.requested_eq, hBegins.begun, append_assoc]
  have hBegun : utxo ∈ next.begun := by
    rw [hBegins.begun]
    simp
  have hQueue := hNext.mem_of_begun hBegun
  constructor
  · exact hInv.cursor_ge
  · have hEarlier := hInv.requested_once
    rw [hIngest.requested_eq, map_append, nodup_append] at hEarlier
    have hPre : (next.begun.map (·.toOutpoint)).Nodup := by
      have hOnce := hIngest.queue_once
      rw [← hNext.order, map_append, nodup_append] at hOnce
      exact hOnce.1
    change ((state.requested ++ [utxo]).map (·.toOutpoint)).Nodup
    rw [hReq, map_append, nodup_append]
    refine ⟨hEarlier.1, hPre, ?_⟩
    intro outpoint hOld other hNew hEq
    rcases List.mem_map.mp hNew with ⟨begun, hIn, rfl⟩
    apply hIngest.queue_fresh begun (hNext.mem_of_begun hIn)
    rw [← hEq]
    exact hOld
  · intro other hIn
    rcases mem_append.mp hIn with hOld | hNew
    · exact hInv.requested_mem other hOld
    · rw [mem_singleton.mp hNew]
      have hPage := hIngest.queue_mem utxo hQueue
      rw [hIngest.list_eq] at hPage
      exact mem_of_mem_filter (mem_of_mem_take hPage)
  · intro attempt hIn
    exact mem_append_left _ (hInv.attempts_requested attempt hIn)
  · exact hInv.known
  · exact hInv.shared
  · exact hInv.completed_shared
  · exact hInv.cursor_le_failed
  · refine ⟨requested, queue, attempts,
        { hIngest with
          requested_eq := hReq
          attempts_eq := ?_
          serves := hNext
          failures := ?_ }⟩
    · rw [hBegins.settled]
      exact hIngest.attempts_eq
    · rw [hBegins.settled]
      exact hIngest.failures

end

theorem IngestInvariant.settled_spec
  {requested queue : List GASPOutput} {attempts : List (GASPOutput × IngestOutcome)}
  {outcome : IngestOutcome}
  (hIngest : IngestInvariant config utxos start state page pool requested queue attempts)
  (hSettles : pool.Settles utxo outcome next) :
  next.Serves queue ∧ utxo ∈ state.requested ∧ state.lastInteraction ≤ utxo.score := by
  have hNext := hSettles.serves hIngest.serves
  have hSettle : (utxo, outcome) ∈ next.settled := by
    rw [hSettles.settled]
    simp
  have hBegun := hNext.begun_of_settled hSettle
  have hPage := hIngest.queue_mem utxo (hNext.mem_of_begun hBegun)
  rw [hSettles.begun] at hBegun
  refine ⟨hNext, ?_, ?_⟩
  · rw [hIngest.requested_eq]
    exact mem_append_right _ hBegun
  · rw [hIngest.list_eq] at hPage
    have hFilter := of_mem_filter (mem_of_mem_take hPage)
    rw [hIngest.since_eq] at hFilter
    simpa using hFilter

theorem SyncInvariant.settle
  (hInv : SyncInvariant config utxos start state) (hPhase : state.phase = .ingest page pool)
  {outcome : IngestOutcome} (hSettles : pool.Settles utxo outcome next) :
  SyncInvariant config utxos start (settleIngest state page next utxo outcome) := by
  rcases hInv.ingest hPhase with ⟨requested, queue, attempts, hIngest⟩
  rcases hIngest.settled_spec hSettles with ⟨hNext, hReq, hScore⟩
  have hAttempts : state.attempts ++ [(utxo, outcome)] = attempts ++ next.settled := by
    rw [hIngest.attempts_eq, hSettles.settled, append_assoc]
  cases outcome with
  | completed =>
    constructor
    · exact hInv.cursor_ge
    · exact hInv.requested_once
    · exact hInv.requested_mem
    · intro attempt hIn
      rcases mem_concat_iff.mp hIn with hOld | hNew
      · exact hInv.attempts_requested attempt hOld
      · rw [hNew]
        exact hReq
    · exact hInv.known
    · intro outpoint hIn
      rcases mem_concat_iff.mp hIn with hOld | hNew
      · rcases hInv.shared outpoint hOld with hStart | ⟨other, hEq, hAttempt⟩
        · exact .inl hStart
        · exact .inr ⟨other, hEq, mem_append_left _ hAttempt⟩
      · right
        rw [hNew]
        exact ⟨utxo, rfl, by simp [settleIngest]⟩
    · intro other hAttempt
      rcases mem_concat_iff.mp hAttempt with hOld | hNew
      · exact mem_append_left _ (hInv.completed_shared other hOld)
      · have hSame := hNew
        cases hSame
        exact mem_append_right _ (by simp)
    · intro other hAttempt
      rcases mem_concat_iff.mp hAttempt with hOld | hNew
      · exact hInv.cursor_le_failed other hOld
      · cases hNew
    · refine ⟨requested, queue, attempts,
          { hIngest with
            requested_eq := ?_
            attempts_eq := hAttempts
            serves := hNext
            failures := ?_ }⟩
      · rw [hSettles.begun]
        exact hIngest.requested_eq
      · rw [hIngest.failures, hSettles.settled]
        simp
  | failed =>
    constructor
    · exact hInv.cursor_ge
    · exact hInv.requested_once
    · exact hInv.requested_mem
    · intro attempt hIn
      rcases mem_concat_iff.mp hIn with hOld | hNew
      · exact hInv.attempts_requested attempt hOld
      · rw [hNew]
        exact hReq
    · exact hInv.known
    · intro outpoint hIn
      rcases hInv.shared outpoint hIn with hStart | ⟨other, hEq, hAttempt⟩
      · exact .inl hStart
      · exact .inr ⟨other, hEq, mem_append_left _ hAttempt⟩
    · intro other hAttempt
      rcases mem_concat_iff.mp hAttempt with hOld | hNew
      · exact hInv.completed_shared other hOld
      · cases hNew
    · intro other hAttempt
      rcases mem_concat_iff.mp hAttempt with hOld | hNew
      · exact hInv.cursor_le_failed other hOld
      · cases hNew
        exact hScore
    · refine ⟨requested, queue, attempts,
          { hIngest with
            requested_eq := ?_
            attempts_eq := hAttempts
            serves := hNext
            failures := ?_ }⟩
      · rw [hSettles.begun]
        exact hIngest.requested_eq
      · rw [hSettles.settled]
        simp

-- The End of a Page

variable {pool : TaskPool GASPOutput IngestOutcome} {requested queue : List GASPOutput}
variable {attempts : List (GASPOutput × IngestOutcome)}

theorem score_le_of_not_mem_take
  (hSorted : items.Pairwise fun left right => left.score ≤ right.score) {count : Nat}
  {taken left : GASPOutput} (hTaken : taken ∈ items.take count) (hItem : left ∈ items)
  (hNot : left ∉ items.take count) : taken.score ≤ left.score := by
  rw [← take_append_drop count items] at hItem hSorted
  rcases mem_append.mp hItem with hIn | hDropped
  · exact absurd hIn hNot
  · exact (pairwise_append.mp hSorted).2.2 taken hTaken left hDropped

section

variable (hIngest : IngestInvariant config utxos start state page pool requested queue attempts)
include hIngest

theorem IngestInvariant.attempted
  (hOver : pool.Over) (hQueue : utxo ∈ queue) : ∃ outcome, (utxo, outcome) ∈ pool.settled := by
  have hPerm := hIngest.serves.settled_perm hOver
  rcases List.mem_map.mp (hPerm.mem_iff.mpr hQueue) with ⟨⟨_, outcome⟩, hIn, rfl⟩
  exact ⟨outcome, hIn⟩

theorem IngestInvariant.allCompleted (hOver : pool.Over) (hNone : page.pageHadFailures = false) :
  AllCompleted state.requested state.attempts := by
  have hSettle : ∀ attempt ∈ pool.settled, attempt.2 = .completed := by
    intro attempt hIn
    cases hOut : attempt.2 with
    | completed => rfl
    | failed =>
      have hFail := hIngest.failures.mpr ⟨attempt, hIn, hOut⟩
      rw [hNone] at hFail
      cases hFail
  constructor
  · intro utxo hIn
    rw [hIngest.requested_eq] at hIn
    rw [hIngest.attempts_eq]
    rcases mem_append.mp hIn with hOld | hBegun
    · exact mem_append_left _ (hIngest.earlier.requested utxo hOld)
    · have hQueue := hIngest.serves.mem_of_begun hBegun
      rcases hIngest.attempted hOver hQueue with ⟨outcome, hAttempt⟩
      have hCompleted := hSettle _ hAttempt
      simp only at hCompleted
      rw [hCompleted] at hAttempt
      exact mem_append_right _ hAttempt
  · intro attempt hIn
    rw [hIngest.attempts_eq] at hIn
    rcases mem_append.mp hIn with hOld | hNew
    · exact hIngest.earlier.attempts attempt hOld
    · exact hSettle attempt hNew

theorem IngestInvariant.page_attempted (hOver : pool.Over) (hPage : utxo ∈ page.response.UTXOList) :
  utxo.toOutpoint ∈ start.knownOutpoints ∨ ∃ outcome, (utxo, outcome) ∈ state.attempts := by
  rw [hIngest.attempts_eq]
  rcases hIngest.page_covered utxo hPage with hKnown | hCompleted | hQueue
  · exact .inl hKnown
  · exact .inr ⟨_, mem_append_left _ hCompleted⟩
  · rcases hIngest.attempted hOver hQueue with ⟨outcome, hAttempt⟩
    exact .inr ⟨outcome, mem_append_right _ hAttempt⟩

end

theorem IngestInvariant.covered_next (hServes : ServesInOrder config utxos)
  (hIngest : IngestInvariant config utxos start state page pool requested queue attempts)
  (hOver : pool.Over) (hNone : page.pageHadFailures = false) : Covered utxos start state.attempts
    page.pageMaxScore := by
  intro utxo hIn hGe hLt
  by_cases hBelow : utxo.score < page.since
  · rcases hIngest.covered utxo hIn hGe hBelow with hKnown | hCompleted
    · exact .inl hKnown
    · right
      rw [hIngest.attempts_eq]
      exact mem_append_left _ hCompleted
  · have hFilter : utxo ∈ utxos.filter (page.since ≤ ·.score) := by
      rw [mem_filter]
      exact ⟨hIn, by simpa using Nat.le_of_not_lt hBelow⟩
    have hPage : utxo ∈ page.response.UTXOList := by
      by_contra hNot
      rcases hIngest.score_eq with hSame | ⟨top, hTop, hEq⟩
      · omega
      · rw [hIngest.list_eq] at hNot hTop
        have hLe := score_le_of_not_mem_take (hServes.sorted.filter _) hTop hFilter hNot
        omega
    rcases hIngest.page_attempted hOver hPage with hKnown | ⟨outcome, hAttempt⟩
    · exact .inl hKnown
    · right
      have hCompleted := (hIngest.allCompleted hOver hNone).attempts _ hAttempt
      simp only at hCompleted
      rw [hCompleted] at hAttempt
      exact hAttempt

section

variable (hIngest : IngestInvariant config utxos start state page pool requested queue attempts)

include hIngest

theorem IngestInvariant.complete
  (hOver : pool.Over) (hShort : page.response.UTXOList.length < config.effectiveLimit) :
  ∀ utxo ∈ utxos, start.lastInteraction ≤ utxo.score →
    utxo.toOutpoint ∈ start.knownOutpoints ∨ (utxo, .completed) ∈ state.attempts ∨
        (utxo, .failed) ∈ state.attempts := by
  intro utxo hIn hGe
  by_cases hBelow : utxo.score < page.since
  · rcases hIngest.covered utxo hIn hGe hBelow with hKnown | hCompleted
    · exact .inl hKnown
    · right
      left
      rw [hIngest.attempts_eq]
      exact mem_append_left _ hCompleted
  · have hPage : utxo ∈ page.response.UTXOList := by
      rw [hIngest.list_eq, length_take] at hShort
      rw [hIngest.list_eq, take_of_length_le (by omega), mem_filter]
      exact ⟨hIn, by simpa using Nat.le_of_not_lt hBelow⟩
    rcases hIngest.page_attempted hOver hPage with hKnown | ⟨outcome, hAttempt⟩
    · exact .inl hKnown
    · cases outcome with
      | completed => exact .inr (.inl hAttempt)
      | failed => exact .inr (.inr hAttempt)

theorem IngestInvariant.cursor_le :
  state.lastInteraction ≤ (endPage config state page).lastInteraction := by
  have hGe := hIngest.score_ge
  have hEq := hIngest.since_eq
  unfold endPage
  simp only
  split_ifs <;> simp only <;> omega

end

theorem IngestInvariant.cursor_le_failed (hInv : SyncInvariant config utxos start state)
  (hIngest : IngestInvariant config utxos start state page pool requested queue attempts)
  (hOver : pool.Over) (utxo : GASPOutput) (hFail : (utxo, .failed) ∈ state.attempts) :
  (endPage config state page).lastInteraction ≤
    utxo.score := by
  cases hFailures : page.pageHadFailures with
  | true =>
    have hSame : (endPage config state page).lastInteraction =
          state.lastInteraction := by
      unfold endPage
      simp only [hFailures, if_true]
      split_ifs <;> rfl
    rw [hSame]
    exact hInv.cursor_le_failed utxo hFail
  | false =>
    have hCompleted := (hIngest.allCompleted hOver hFailures).attempts _ hFail
    cases hCompleted

section

variable (hServes : ServesInOrder config utxos) (hInv : SyncInvariant config utxos start state)

include hServes hInv

theorem SyncInvariant.endPage (hPhase : state.phase = .ingest page pool) (hOver : pool.Over) :
  SyncInvariant config utxos start (endPage config state page) := by
  rcases hInv.ingest hPhase with ⟨requested, queue, attempts, hIngest⟩
  have hCursor := hIngest.cursor_le
  have hFail := hIngest.cursor_le_failed hInv hOver
  have hGe := Nat.le_trans hInv.cursor_ge hCursor
  unfold Gasp.endPage at hFail hGe ⊢
  simp only at hFail hGe ⊢
  split_ifs at hFail hGe ⊢ with hFailures hStuck hFull hStuck hFull
  · exact
      { hInv with
        cursor_ge := hGe
        cursor_le_failed := hFail
        phase := trivial }
  · -- a page with failures does not advance
    have hSince := hIngest.since_eq
    omega
  · exact
      { hInv with
        cursor_ge := hGe
        cursor_le_failed := hFail
        phase := hIngest.complete hOver (Nat.lt_of_not_le hFull) }
  · exact
      { hInv with
        cursor_ge := hGe
        cursor_le_failed := hFail
        phase := trivial }
  · have hNone : page.pageHadFailures = false := by simpa using hFailures
    have hCompleted := hIngest.allCompleted hOver hNone
    have hCovered := hIngest.covered_next hServes hOver hNone
    exact
      { hInv with
        cursor_ge := hGe
        cursor_le_failed := hFail
        phase := ⟨hCompleted, hCovered⟩ }
  · exact
      { hInv with
        cursor_ge := hGe
        cursor_le_failed := hFail
        phase := hIngest.complete hOver (Nat.lt_of_not_le hFull) }

theorem SyncInvariant.step {after : SyncState} (hStep : SyncStep config state after) :
  SyncInvariant config utxos start after := by
  cases hStep with
  | request hPhase => exact hInv.receivePage hServes hPhase
  | begin hPhase hBegins => exact hInv.begin hPhase hBegins
  | settle hPhase hSettles => exact hInv.settle hPhase hSettles
  | endPage hPhase hOver => exact hInv.endPage hServes hPhase hOver

end

-- The End of a Run

variable {start state after : SyncState}

def above (utxos : List GASPOutput) (score : Nat) : List GASPOutput :=
  utxos.filter (score < ·.score)

theorem above_length_le {score next : Nat} (hLe : score ≤ next) :
  (above utxos next).length ≤ (above utxos score).length := by
  apply List.Sublist.length_le
  apply monotone_filter_right
  intro utxo hAbove
  simp only [decide_eq_true_eq] at hAbove ⊢
  omega

theorem above_length_lt {score next : Nat} (hIn : utxo ∈ utxos) (hAbove : score < utxo.score)
  (hPassed : utxo.score ≤ next) : (above utxos next).length < (above utxos score).length := by
  have hTwice : above utxos next = above (above utxos score) next := by
    unfold above
    rw [List.filter_filter]
    apply filter_congr
    intro other _
    rw [← Bool.decide_and, decide_eq_decide]
    omega
  rw [hTwice]
  apply length_filter_lt_length_iff_exists.mpr
  refine ⟨utxo, ?_, ?_⟩
  · exact mem_filter.mpr ⟨hIn, by simpa using hAbove⟩
  · simpa using hPassed

/- A bound on the steps left in a phase. -/
def SyncPhase.rank (size : Nat) : SyncPhase → Nat
| .request => 2 * size + 2
| .ingest _ pool => pool.weight + 1
| _ => 0

/- A bound on the steps left in a run. -/
def SyncState.rank (utxos : List GASPOutput) (state : SyncState) : Nat :=
  (above utxos state.lastInteraction).length * (2 * utxos.length + 3) +
    state.phase.rank utxos.length

section

variable (hIngest : IngestInvariant config utxos start state page pool requested queue attempts)

include hIngest

theorem IngestInvariant.weight_le : pool.weight ≤ 2 * utxos.length := by
  have hServed := hIngest.serves.weight_le
  have hOnce : queue.Nodup := hIngest.queue_once.of_map _
  have hSubset : queue ⊆ utxos := by
    intro utxo hIn
    have hPage := hIngest.queue_mem utxo hIn
    rw [hIngest.list_eq] at hPage
    exact mem_of_mem_filter (mem_of_mem_take hPage)
  have hLen := (subperm_of_subset hOnce hSubset).length_le
  omega

theorem IngestInvariant.above_lt (hAdvances : page.since < page.pageMaxScore) :
  (above utxos page.pageMaxScore).length < (above utxos state.lastInteraction).length := by
  have hSince := hIngest.since_eq
  rcases hIngest.score_eq with hSame | ⟨utxo, hPage, hEq⟩
  · omega
  · rw [hIngest.list_eq] at hPage
    exact above_length_lt (mem_of_mem_filter (mem_of_mem_take hPage))
      (by omega) (Nat.le_of_eq hEq)

end

theorem SyncInvariant.cursor_mono
  (hInv : SyncInvariant config utxos start state) (hStep : SyncStep config state after) :
  state.lastInteraction ≤ after.lastInteraction := by
  cases hStep with
  | request hPhase =>
    unfold Gasp.receivePage
    split <;> exact Nat.le_refl _
  | begin hPhase hBegins => exact Nat.le_refl _
  | @settle _ _ _ _ outcome hPhase hSettles => cases outcome <;> exact Nat.le_refl _
  | endPage hPhase hOver =>
    rcases hInv.ingest hPhase with ⟨_, _, _, hIngest⟩
    exact hIngest.cursor_le

theorem IngestInvariant.rank_lt
  (hIngest : IngestInvariant config utxos start state page pool requested queue attempts)
  (hPhase : state.phase = .ingest page pool) :
  (Gasp.endPage config state page).rank utxos < state.rank utxos := by
  have hCursor := hIngest.cursor_le
  unfold SyncState.rank
  rw [hPhase]
  by_cases hNext : (Gasp.endPage config state page).phase = .request
  · have hAdvances :
        page.since < page.pageMaxScore ∧ (Gasp.endPage config state page).lastInteraction =
          page.pageMaxScore := by
      have hSince := hIngest.since_eq
      unfold Gasp.endPage at hNext ⊢
      simp only at hNext ⊢
      split_ifs at hNext ⊢ <;> simp at hNext ⊢ <;> omega
    have hAbove := hIngest.above_lt hAdvances.1
    rw [hNext, hAdvances.2]
    have hRounds := Nat.mul_le_mul_right (2 * utxos.length + 3) hAbove
    rw [Nat.succ_mul] at hRounds
    simp only [SyncPhase.rank]
    omega
  · have hOver : (Gasp.endPage config state page).phase.rank utxos.length = 0 := by
      unfold Gasp.endPage at hNext ⊢
      simp only at hNext ⊢
      split_ifs at hNext ⊢ <;> simp at hNext ⊢ <;> rfl
    have hRounds := Nat.mul_le_mul_right (2 * utxos.length + 3) (@above_length_le utxos _ _ hCursor)
    rw [hOver]
    simp only [SyncPhase.rank]
    omega

section

variable (hServes : ServesInOrder config utxos) (hInv : SyncInvariant config utxos start state)

include hServes hInv

theorem SyncInvariant.rank_lt
  (hStep : SyncStep config state after) : after.rank utxos < state.rank utxos := by
  have hNext := hInv.step hServes hStep
  cases hStep with
  | request hPhase =>
    unfold SyncState.rank
    rw [hPhase]
    unfold Gasp.receivePage at hNext ⊢
    cases hPage : requestPage config state.lastInteraction with
    | error error => simp [SyncPhase.rank]
    | ok response =>
      rw [hPage] at hNext
      rcases hNext.ingest rfl with ⟨_, _, _, hIngest⟩
      have hWeight := hIngest.weight_le
      simp only [SyncPhase.rank]
      omega
  | begin hPhase hBegins =>
    have hWeight := hBegins.weight_lt
    unfold SyncState.rank
    rw [hPhase]
    simp only [SyncPhase.rank]
    omega
  | @settle _ _ _ _ outcome hPhase hSettles =>
    have hWeight := hSettles.weight_lt
    unfold SyncState.rank
    rw [hPhase]
    cases outcome with
    | completed =>
      simp only [settleIngest, SyncPhase.rank]
      omega
    | failed =>
      simp only [settleIngest, SyncPhase.rank]
      omega
  | endPage hPhase hOver =>
    rcases hInv.ingest hPhase with ⟨_, _, _, hIngest⟩
    exact hIngest.rank_lt hPhase

/- The runs that follow a reachable state are finite. -/
theorem acc_syncStep : Acc (fun next state => SyncStep config state next)
    state := by
  induction hRank : state.rank utxos using Nat.strongRecOn generalizing state with
  | _ rank ih =>
    constructor
    intro next hStep
    have hLess := hInv.rank_lt hServes hStep
    rw [hRank] at hLess
    exact ih _ hLess (hInv.step hServes hStep) rfl

end

theorem syncStep_progress (config : SyncConfig) (state : SyncState) :
  state.phase.IsOver ∨ ∃ next, SyncStep config state next := by
  cases hPhase : state.phase with
  | request => exact .inr ⟨_, .request hPhase⟩
  | finished outgoing => exact .inl trivial
  | threw error => exact .inl trivial
  | ingest page pool =>
    right
    by_cases hOver : pool.Over
    · exact ⟨_, .endPage hPhase hOver⟩
    · have hWorkers : 0 < workers config := by
        unfold workers
        split <;> decide
      rcases pool.exists_next hWorkers hOver .completed with
        ⟨utxo, next, hBegins⟩ | ⟨utxo, next, hSettles⟩
      · exact ⟨_, .begin hPhase hBegins⟩
      · exact ⟨_, .settle hPhase hSettles⟩

variable {start state : SyncState}

theorem SyncInvariant.run
  (hServes : ServesInOrder config utxos) (hInv : SyncInvariant config utxos start start)
  (hRun : Relation.ReflTransGen (SyncStep config) start state) :
  SyncInvariant config utxos start state := by
  induction hRun with
  | refl => exact hInv
  | tail _ hStep ih => exact ih.step hServes hStep

theorem SyncInvariant.pullResult
  (hServes : ServesInOrder config utxos) (hInv : SyncInvariant config utxos start state) :
  PullResult config utxos start state where
  requested_once := hInv.requested_once
  attempts_requested := hInv.attempts_requested
  complete := by
    intro outgoing hPhase
    have hFin := hInv.phase
    unfold PhaseInvariant at hFin
    rw [hPhase] at hFin
    exact hFin
  cursor_ge := hInv.cursor_ge
  cursor_mono := fun _ hStep => hInv.cursor_mono hStep
  cursor_le_failed := hInv.cursor_le_failed
  progress := syncStep_progress config state
  terminates := acc_syncStep hServes hInv

/-
  Whatever the store, the page size and the interleaving,
  the pull half attempts what it does not know and ends.
-/
theorem sync_pull_complete (config : SyncConfig) (utxos : List GASPOutput) (lastInteraction : Nat)
  (hServes : ServesInOrder config utxos) {state : SyncState}
  (hRun : Relation.ReflTransGen (SyncStep config) (beginSync config lastInteraction) state) :
  PullResult config utxos (beginSync config lastInteraction) state := by
  have hInv := (syncInvariant_begin config utxos lastInteraction).run hServes hRun
  exact hInv.pullResult hServes

-- A Run

/- A remote with two outputs that serves pages of two. -/
def firstUTXO : GASPOutput :=
  { txid := ['a'], outputIndex := 0, score := 1 }

def secondUTXO : GASPOutput :=
  { txid := ['b'], outputIndex := 0, score := 2 }

def servedUTXOs : List GASPOutput :=
  [firstUTXO, secondUTXO]

def servedConfig : SyncConfig :=
  { limit := some 2
    unidirectional := false
    sequential := false
    findKnownUTXOs := .ok []
    getInitialResponse := fun since limit =>
      .ok
        { since := 0
          UTXOList := (servedUTXOs.filter (since ≤ ·.score)).take limit } }

theorem servesInOrder_servedConfig : ServesInOrder servedConfig servedUTXOs where
  sorted := by decide
  distinct := by decide
  answers := fun _ _ => ⟨0, rfl⟩

def servedState : SyncState :=
  { lastInteraction := 2
    localUTXOs := []
    knownOutpoints := []
    sharedOutpoints := [secondUTXO.toOutpoint, firstUTXO.toOutpoint]
    phase := .finished []
    requested := servedUTXOs
    attempts := [(secondUTXO, .completed), (firstUTXO, .completed)] }

def lastPage : Page :=
  { since := 2
    response := { since := 0, UTXOList := [secondUTXO] }
    pageMaxScore := 2
    pageHadFailures := false }

def lastPageState : SyncState :=
  { servedState with
    phase := .ingest lastPage { waiting := [] } }

theorem servedConfig_run :
  Relation.ReflTransGen (SyncStep servedConfig) (beginSync servedConfig 0) servedState := by
  have hFst : TaskPool.Begins (ρ := IngestOutcome) (workers servedConfig)
        { waiting := servedUTXOs } firstUTXO
        { waiting := [secondUTXO]
          running := [firstUTXO]
          begun := [firstUTXO] } :=
    ⟨by decide, rfl, rfl, rfl, rfl⟩
  have hSnd : TaskPool.Begins (ρ := IngestOutcome) (workers servedConfig)
        { waiting := [secondUTXO]
          running := [firstUTXO]
          begun := [firstUTXO] } secondUTXO
        { waiting := []
          running := servedUTXOs
          begun := servedUTXOs } :=
    ⟨by decide, rfl, rfl, rfl, rfl⟩
  have hSndSettles : TaskPool.Settles
        { waiting := []
          running := servedUTXOs
          begun := servedUTXOs } secondUTXO .completed
        { waiting := []
          running := [firstUTXO]
          begun := servedUTXOs
          settled := [(secondUTXO, IngestOutcome.completed)] } :=
    ⟨rfl, by decide, rfl, rfl⟩
  have hFstSettles : TaskPool.Settles
        { waiting := []
          running := [firstUTXO]
          begun := servedUTXOs
          settled := [(secondUTXO, IngestOutcome.completed)] }
        firstUTXO .completed
        { waiting := []
          running := []
          begun := servedUTXOs
          settled := [(secondUTXO, .completed), (firstUTXO, .completed)] } :=
    ⟨rfl, by decide, rfl, rfl⟩
  apply Relation.ReflTransGen.head (.request rfl)
  apply Relation.ReflTransGen.head (.begin rfl hFst)
  apply Relation.ReflTransGen.head (.begin rfl hSnd)
  apply Relation.ReflTransGen.head (.settle rfl hSndSettles)
  apply Relation.ReflTransGen.head (.settle rfl hFstSettles)
  apply Relation.ReflTransGen.head (.endPage rfl ⟨rfl, rfl⟩)
  apply Relation.ReflTransGen.head (.request rfl)
  have hLast : SyncStep servedConfig lastPageState (endPage servedConfig lastPageState lastPage) :=
    .endPage rfl ⟨rfl, rfl⟩
  exact Relation.ReflTransGen.single hLast

theorem sync_pull_complete_served :
  PullResult servedConfig servedUTXOs (beginSync servedConfig 0) servedState :=
  sync_pull_complete servedConfig servedUTXOs 0 servesInOrder_servedConfig servedConfig_run

end TsStack.Gasp
