import TsStack.Primitives.Hex
import TsStack.Wallet.SyncChunk

/-
  What a chunk holds: the rows that are left of each kind,
  up to a kind at which a limit cuts it.
-/

-- Appended Items

open List Option

namespace TsStack.Wallet

theorem appendSyncItems_not_done
  (items : List SyncEntity) (offset itemCount : Nat) (roughSize : Int) (hPos : 0 < itemCount)
  (hDone : (appendSyncItems items offset itemCount roughSize).done = false) :
  (appendSyncItems items offset itemCount roughSize).added = items ∧
    (appendSyncItems items offset itemCount roughSize).offset = offset + items.length ∧
    (appendSyncItems items offset itemCount roughSize).itemCount + items.length = itemCount ∧
    0 < (appendSyncItems items offset itemCount roughSize).itemCount := by
  induction items generalizing offset itemCount roughSize with
  | nil => exact ⟨rfl, rfl, rfl, hPos⟩
  | cons item items ih =>
    unfold appendSyncItems at hDone ⊢
    dsimp only at hDone ⊢
    by_cases hLimit : itemCount - 1 ≤ 0 ∨ roughSize - item.roughSize < 0
    · rw [if_pos hLimit] at hDone
      cases hDone
    · rw [if_neg hLimit] at hDone ⊢
      push Not at hLimit
      rcases ih (offset + 1) (itemCount - 1) (roughSize - item.roughSize) (by omega) hDone with
        ⟨hAdded, hOff, hCount, hLeft⟩
      dsimp only
      rw [hAdded, hOff, length_cons]
      refine ⟨rfl, by omega, by omega, hLeft⟩

theorem appendSyncItems_done (items : List SyncEntity) (offset itemCount : Nat) (roughSize : Int)
  (hDone : (appendSyncItems items offset itemCount roughSize).done = true) :
  ∃ n, 0 < n ∧ n ≤ items.length ∧ (appendSyncItems items offset itemCount
      roughSize).added = items.take n := by
  induction items generalizing offset itemCount roughSize with
  | nil => cases hDone
  | cons item items ih =>
    unfold appendSyncItems at hDone ⊢
    dsimp only at hDone ⊢
    by_cases hLimit : itemCount - 1 ≤ 0 ∨ roughSize - item.roughSize < 0
    · rw [if_pos hLimit]
      refine ⟨1, by omega, ?_, rfl⟩
      rw [length_cons]
      omega
    · rw [if_neg hLimit] at hDone ⊢
      rcases ih (offset + 1) (itemCount - 1) (roughSize - item.roughSize) hDone with
        ⟨n, hPos, hLen, hAdded⟩
      refine ⟨n + 1, by omega, ?_, ?_⟩
      · rw [length_cons]
        omega
      · dsimp only
        rw [hAdded, take_succ_cons]

theorem getNextSyncQueryLimit_pos {currentLimit itemsRemaining : Nat} (roughSizeRemaining : Int)
  (batchRoughSize batchItemCount : Nat) (hLimit : 0 < currentLimit) (hItems : 0 < itemsRemaining) :
  0 < getNextSyncQueryLimit currentLimit itemsRemaining
    roughSizeRemaining batchRoughSize batchItemCount := by
  unfold getNextSyncQueryLimit maxSyncQueryItems
  unfold syncQueryGrowthFactor
  dsimp only
  omega

-- Pages of One Kind

def pageOf (rows : List SyncEntity) (limit offset : Nat) : List SyncEntity :=
  (rows.drop offset).take limit

/-
  Unless a limit is met, the pages add all the rows from the
  offset on.  If one is met, they add at least one.
-/
structure PagesAdd (rows : List SyncEntity) (offset : Nat) (before after : PageState) : Prop where
  whole : after.done = false → after.items = some (before.items.getD [] ++ rows.drop offset) ∧
        0 < after.itemCount
  cut : after.done = true → ∃ n, 0 < n ∧ n ≤ (rows.drop offset).length ∧ after.items =
          some (before.items.getD [] ++ (rows.drop offset).take n)

theorem PagesAdd.after_page
  {rows : List SyncEntity} {limit offset : Nat} {before next after : PageState}
  (hNext : next.items = some (before.items.getD [] ++ pageOf rows limit offset))
  (hAdd : PagesAdd rows (offset + (pageOf rows limit offset).length) next after) :
  PagesAdd rows offset before after := by
  have hSplit : rows.drop offset = pageOf rows limit offset ++ rows.drop
            (offset + (pageOf rows limit offset).length) := by
    have hLen : (pageOf rows limit offset).length = min limit (rows.drop offset).length :=
      length_take
    rw [← drop_drop, hLen]
    by_cases hShort : limit ≤ (rows.drop offset).length
    · rw [Nat.min_eq_left hShort]
      exact (take_append_drop _ _).symm
    · have hLe : (rows.drop offset).length ≤ limit := by omega
      unfold pageOf
      rw [Nat.min_eq_right hLe, take_of_length_le hLe, drop_length, append_nil]
  constructor
  · intro hDone
    rcases hAdd.whole hDone with ⟨hItems, hLeft⟩
    rw [hItems, hNext, getD_some, append_assoc, ← hSplit]
    exact ⟨rfl, hLeft⟩
  · intro hDone
    rcases hAdd.cut hDone with ⟨n, hPos, hBound, hItems⟩
    refine ⟨(pageOf rows limit offset).length + n, by omega, ?_, ?_⟩
    · rw [hSplit, length_append]
      omega
    · rw [hItems, hNext, getD_some, append_assoc]
      conv_rhs => rw [hSplit]
      rw [take_length_add_append]

theorem addPages_spec (rows : List SyncEntity) (fuel limit offset : Nat) (state : PageState)
  (hDone : state.done = false) (hLimit : 0 < limit) (hPos : 0 < state.itemCount)
  (hFuel : state.itemCount < fuel) :
  PagesAdd rows offset state (addPages (pageOf rows) fuel limit offset state) := by
  induction fuel generalizing limit offset state with
  | zero => omega
  | succ fuel ih =>
    unfold addPages
    have hGo : ¬(state.done = true ∨ limit = 0) := by simp [hDone, Nat.ne_of_gt hLimit]
    rw [if_neg hGo]
    dsimp only
    by_cases hEmpty : (pageOf rows limit offset).isEmpty = true
    · rw [if_pos hEmpty]
      have hNone : rows.drop offset = [] := by
        have hTake := List.isEmpty_iff.mp hEmpty
        rcases take_eq_nil_iff.mp hTake with hZero | hDrop
        · omega
        · exact hDrop
      constructor
      · intro _
        rw [hNone, append_nil]
        exact ⟨rfl, hPos⟩
      · intro hTrue
        exact absurd (hDone.symm.trans hTrue) (by decide)
    · rw [if_neg hEmpty]
      have hSome : 0 < (pageOf rows limit offset).length := by
        apply length_pos_of_ne_nil
        intro hNil
        exact hEmpty (List.isEmpty_iff.mpr hNil)
      have hLen : (pageOf rows limit offset).length = min limit (rows.drop offset).length :=
        length_take
      by_cases hAppend : (appendSyncItems (pageOf rows limit offset) offset state.itemCount
        state.roughSize).done = true
      · rw [if_pos (Or.inl hAppend)]
        rcases appendSyncItems_done _ _ _ _ hAppend with ⟨n, hN, hBound, hAdded⟩
        constructor
        · intro hFalse
          exact absurd (hAppend.symm.trans hFalse) (by decide)
        · intro _
          refine ⟨n, hN, by omega, ?_⟩
          dsimp only
          rw [hAdded]
          unfold pageOf
          rw [take_take, Nat.min_eq_left (by omega)]
      · have hNot := Bool.eq_false_iff.mpr hAppend
        rcases appendSyncItems_not_done _ _ _ _ hPos hNot with ⟨hAdded, hOff, hCount, hLeft⟩
        by_cases hShort : (pageOf rows limit offset).length < limit
        · rw [if_pos (Or.inr hShort)]
          have hAll : pageOf rows limit offset = rows.drop offset :=
            take_of_length_le (by omega)
          constructor
          · intro _
            refine ⟨?_, hLeft⟩
            dsimp only
            rw [hAdded, hAll]
          · intro hTrue
            exact absurd hTrue hAppend
        · rw [if_neg (not_or.mpr ⟨hAppend, hShort⟩), hOff]
          have hLess : (appendSyncItems (pageOf rows limit offset) offset state.itemCount
                state.roughSize).itemCount < fuel := by
            omega
          have hNext := getNextSyncQueryLimit_pos
            (appendSyncItems (pageOf rows limit offset) offset state.itemCount
              state.roughSize).roughSize
            (appendSyncItems (pageOf rows limit offset) offset state.itemCount
              state.roughSize).batchRoughSize
            (pageOf rows limit offset).length hLimit hLeft
          apply PagesAdd.after_page _ (ih _ _ _ hNot hNext hLeft hLess)
          dsimp only
          rw [hAdded]

-- Rounds over the Kinds

/-
  Either each kind has all its rows that are left, or a kind is cut after some of them: those
  before it have all theirs and those after it have no array.
-/
inductive ChunkShape
  (remaining : EntityName → List SyncEntity) (arrays : EntityName → Option (List SyncEntity))
  (names : List EntityName) : Prop
| whole
    (hAll : ∀ name ∈ names, arrays name = some (remaining name))
| cut
    (before : List EntityName) (name : EntityName) (after : List EntityName) (n : Nat)
    (hNames : names = before ++ name :: after) (hPos : 0 < n) (hBound : n ≤ (remaining name).length)
    (hBefore : ∀ other ∈ before, arrays other = some (remaining other))
    (hName : arrays name = some ((remaining name).take n))
    (hAfter : ∀ other ∈ after, arrays other = none)

theorem ChunkShape.cons
  {remaining : EntityName → List SyncEntity} {arrays : EntityName → Option (List SyncEntity)}
  {name : EntityName} {names : List EntityName} (hName : arrays name = some (remaining name))
  (hShape : ChunkShape remaining arrays names) : ChunkShape remaining arrays (name :: names) := by
  cases hShape with
  | whole hAll =>
    apply ChunkShape.whole
    intro other hOther
    rcases mem_cons.mp hOther with hEq | hMem
    · rw [hEq]
      exact hName
    · exact hAll other hMem
  | cut before cutName after n hNames hPos hBound hBefore
      hCut hAfter =>
      apply ChunkShape.cut (name :: before) cutName after n _ hPos hBound _ hCut hAfter
      · rw [hNames]
        rfl
      · intro other hOther
        rcases mem_cons.mp hOther with hEq | hMem
        · rw [hEq]
          exact hName
        · exact hBefore other hMem

section Rounds

variable {source : SyncSource} {args : RequestSyncChunkArgs} {offset : EntityName → Nat}

def remainingRows (source : SyncSource) (since : Option Int) (offset : EntityName → Nat)
  (name : EntityName) : List SyncEntity :=
  (source.rowsSince since name).drop (offset name)

/- The pages of a kind that `addItems` adds. -/
def kindPages
  (source : SyncSource) (args : RequestSyncChunkArgs) (state : ChunkState) (name : EntityName)
  (start : Nat) : PageState :=
  addPages (pageOf (source.rowsSince args.since name)) (state.itemCount + 1)
    (firstQueryLimit args.limits.maxItems state.itemCount name) start
    { itemCount := state.itemCount
      roughSize := state.roughSize
      done := state.done
      items := state.stateArray name }

def visitKind (state : ChunkState) (name : EntityName) (page : PageState)
  (offsets : List (EntityName × Nat)) : ChunkState :=
  { itemCount := page.itemCount
    roughSize := page.roughSize
    done := page.done
    offsets := offsets
    stateArray := fun other =>
      if other = name then page.items
      else state.stateArray other }

theorem addItems_of_offsets
  {state : ChunkState} {name : EntityName} {start : Nat} {offsets : List (EntityName × Nat)}
  (hOffsets : state.offsets = (name, start) :: offsets) :
  addItems source args state name = .ok (visitKind state name
      (kindPages source args state name start) offsets) := by
  unfold addItems
  rw [hOffsets]
  exact if_neg (not_not.mpr rfl)

variable (names : List EntityName) (state : ChunkState)

theorem foldlM_addItems_done (hDone : state.done = true)
  (hOffsets : state.offsets = names.map fun name => (name, offset name)) :
  names.foldlM (addItems source args) state = .ok { state with offsets := [] } := by
  induction names generalizing state with
  | nil =>
    rw [foldlM_nil]
    cases state
    cases hOffsets
    rfl
  | cons name names ih =>
    have hPages : kindPages source args state name (offset name) =
          { itemCount := state.itemCount
            roughSize := state.roughSize
            done := state.done
            items := state.stateArray name } := by
      unfold kindPages addPages
      exact if_pos (Or.inl hDone)
    have hArrays :
        (fun other =>
          if other = name then state.stateArray name
          else state.stateArray other) =
          state.stateArray := by
      funext other
      by_cases hOther : other = name
      · rw [if_pos hOther, hOther]
      · rw [if_neg hOther]
    rw [foldlM_cons, addItems_of_offsets hOffsets, hPages]
    unfold visitKind
    dsimp only [bind, Except.bind]
    rw [hArrays]
    exact ih _ hDone rfl

theorem firstQueryLimit_pos
  {itemCount : Nat} (maxItems : Nat) (name : EntityName) (hPos : 0 < itemCount) :
  0 < firstQueryLimit maxItems itemCount name := by
  unfold firstQueryLimit maxSyncQueryItems minSyncQueryItems
  omega

theorem foldlM_addItems_shape
  (hNodup : names.Nodup) (hDone : state.done = false) (hPos : 0 < state.itemCount)
  (hOffsets : state.offsets = names.map fun name => (name, offset name))
  (hNone : ∀ name ∈ names, state.stateArray name = none) :
  ∃ state', names.foldlM (addItems source args) state = .ok state' ∧ state'.offsets = [] ∧
      (∀ other, other ∉ names → state'.stateArray other = state.stateArray other) ∧
      ChunkShape (remainingRows source args.since offset) state'.stateArray names := by
  induction names generalizing state with
  | nil =>
    refine ⟨state, rfl, hOffsets, fun _ _ => rfl, ?_⟩
    apply ChunkShape.whole
    intro name hName
    cases hName
  | cons name names ih =>
    rcases nodup_cons.mp hNodup with ⟨hFresh, hNodup⟩
    have hPages : PagesAdd (source.rowsSince args.since name) (offset name) _
          (kindPages source args state name (offset name)) :=
      addPages_spec _ _ _ _ _ hDone (firstQueryLimit_pos _ _ hPos) hPos (Nat.lt_succ_self _)
    have hStart := hNone name mem_cons_self
    rw [foldlM_cons, addItems_of_offsets hOffsets]
    dsimp only [bind, Except.bind]
    have hOther' : ∀ page offsets other, other ≠ name →
          (visitKind state name page offsets).stateArray other = state.stateArray other :=
      fun _ _ _ hNe => if_neg hNe
    have hSelf : ∀ page offsets, (visitKind state name page offsets).stateArray name =
            page.items :=
      fun _ _ => if_pos rfl
    have hNe : ∀ other ∈ names, other ≠ name := by
      intro other hOther hEq
      exact hFresh (hEq ▸ hOther)
    cases hCut : (kindPages source args state name (offset name)).done with
    | false =>
      rcases hPages.whole hCut with ⟨hItems, hLeft⟩
      dsimp only at hItems
      rw [hStart, getD_none, nil_append] at hItems
      have hNone' :
          ∀ other ∈ names, (visitKind state name (kindPages source args state name (offset name))
            (names.map fun name => (name, offset name))).stateArray other = none := by
        intro other hOther
        rw [hOther' _ _ _ (hNe other hOther)]
        exact hNone other (mem_cons_of_mem _ hOther)
      rcases ih _ hNodup hCut hLeft rfl hNone' with ⟨state', hFold, hOffsets', hOth, hShape⟩
      refine ⟨state', hFold, hOffsets', ?_, ?_⟩
      · intro other hOther
        rw [hOth other (fun hMem => hOther (mem_cons_of_mem _ hMem))]
        apply hOther'
        intro hEq
        exact hOther (hEq ▸ mem_cons_self)
      · apply ChunkShape.cons _ hShape
        rw [hOth name hFresh, hSelf]
        exact hItems
    | true =>
      rcases hPages.cut hCut with ⟨n, hN, hBound, hItems⟩
      dsimp only at hItems
      rw [hStart, getD_none, nil_append] at hItems
      refine ⟨_, foldlM_addItems_done names _ hCut rfl, rfl, ?_, ?_⟩
      · intro other hOther
        apply hOther'
        intro hEq
        exact hOther (hEq ▸ mem_cons_self)
      · apply ChunkShape.cut [] name names n rfl hN hBound
        · intro other hOther
          cases hOther
        · exact (hSelf _ _).trans hItems
        · intro other hOther
          exact (hOther' _ _ _ (hNe other hOther)).trans
            (hNone other (mem_cons_of_mem _ hOther))

/- Without offsets a visit only ends the rounds. -/
theorem foldlM_addItems_no_offsets (hOffsets : state.offsets = []) :
  ∃ state', names.foldlM (addItems source args) state = .ok state' ∧ state'.offsets = [] ∧
      state'.stateArray = state.stateArray := by
  induction names generalizing state with
  | nil => exact ⟨state, rfl, hOffsets, rfl⟩
  | cons name names ih =>
    have hStep : addItems source args state name = .ok { state with done := true } := by
      unfold addItems
      rw [hOffsets]
    rw [foldlM_cons, hStep]
    exact ih _ hOffsets

theorem addRounds_no_offsets (fuel : Nat) (state : ChunkState) (hOffsets : state.offsets = []) :
  ∃ state', addRounds source args fuel state = .ok state' ∧
      state'.stateArray = state.stateArray := by
  induction fuel generalizing state with
  | zero => exact ⟨state, rfl, rfl⟩
  | succ fuel ih =>
    unfold addRounds
    by_cases hDone : state.done = true
    · rw [if_pos hDone]
      exact ⟨state, rfl, rfl⟩
    · rw [if_neg hDone]
      rcases foldlM_addItems_no_offsets EntityName.all state hOffsets with
        ⟨last, hFold, hOffsets', hArrays⟩
      rcases ih last hOffsets' with ⟨state', hRounds, hArrays'⟩
      refine ⟨state', ?_, hArrays'.trans hArrays⟩
      rw [hFold]
      exact hRounds

theorem EntityName.nodup_all : EntityName.all.Nodup := by
  decide

theorem EntityName.mem_all (name : EntityName) : name ∈ EntityName.all := by
  cases name
  all_goals decide

/-
  The chunk for the offsets of all the kinds has the rows that are left of each kind, up to a cut.
-/
theorem getSyncChunk_shape
  (hOffsets : args.offsets = EntityName.all.map fun name => (name, offset name)) :
  ∃ chunk, getSyncChunk source args = .ok chunk ∧ chunk.user = (if args.since.all fun since =>
            since < source.user.updatedAt then
          some source.user
        else none) ∧
      ChunkShape (remainingRows source args.since offset) chunk.stateArray EntityName.all := by
  rcases @foldlM_addItems_shape source args offset EntityName.all
      { itemCount := args.limits.maxItems
        roughSize := args.limits.maxRoughSize
        offsets := args.offsets }
      EntityName.nodup_all rfl args.limits.maxItems_pos hOffsets (fun _ _ => rfl) with
    ⟨last, hFold, hOffsets', -, hShape⟩
  rcases @addRounds_no_offsets source args args.offsets.length last hOffsets' with
    ⟨state', hRounds, hArrays⟩
  refine ⟨⟨_, state'.stateArray⟩, ?_, rfl, hArrays ▸ hShape⟩
  unfold getSyncChunk addRounds
  rw [if_neg Bool.false_ne_true, hFold]
  dsimp only [bind, Except.bind]
  rw [hRounds]
  rfl

end Rounds

end TsStack.Wallet
