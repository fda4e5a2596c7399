import Mathlib.Data.List.Nodup

/-
  Tables as lists of rows with a key, and the change of the
  rows of one key.
-/

-- Updates

open List

namespace TsStack.KeyedRows

variable {κ Row : Type} [DecidableEq κ]

def update (key : Row → κ) (id : κ) (change : Row → Row) (rows : List Row) : List Row :=
  rows.map fun row => if key row = id then change row else row

variable {key : Row → κ} {id : κ} {change : Row → Row} {rows : List Row} {row : Row}

theorem mem_update_iff :
  row ∈ update key id change rows ↔ (∃ old ∈ rows, key old = id ∧ row = change old) ∨
      (row ∈ rows ∧ key row ≠ id) := by
  unfold update
  constructor
  · intro hMem
    rcases List.mem_map.mp hMem with ⟨old, hOld, hEq⟩
    by_cases hKey : key old = id
    · rw [if_pos hKey] at hEq
      exact .inl ⟨old, hOld, hKey, hEq.symm⟩
    · rw [if_neg hKey] at hEq
      subst hEq
      exact .inr ⟨hOld, hKey⟩
  · rintro (⟨old, hOld, hKey, hEq⟩ | ⟨hRow, hKey⟩)
    · apply List.mem_map.mpr
      exact ⟨old, hOld, by rw [if_pos hKey, hEq]⟩
    · apply List.mem_map.mpr
      exact ⟨row, hRow, if_neg hKey⟩

theorem update_append (others : List Row) : update key id change (rows ++ others) =
    update key id change rows ++ update key id change others :=
  map_append

theorem update_eq_self (hKeys : ∀ row ∈ rows, key row ≠ id) : update key id change rows = rows := by
  unfold update
  have hId : ∀ row ∈ rows, (if key row = id then change row else row) = row :=
    fun row hRow => if_neg (hKeys row hRow)
  rw [map_congr_left hId, List.map_id']

theorem update_keys (hKey : ∀ row ∈ rows, key row = id → key (change row) = id) :
  (update key id change rows).map key = rows.map key := by
  unfold update
  rw [List.map_map]
  apply map_congr_left
  intro row hRow
  by_cases hId : key row = id
  · simp [hId, hKey row hRow hId]
  · simp [hId]

theorem update_append_cons
  {before after : List Row} {next : Row} (hNodup : ((before ++ row :: after).map key).Nodup) :
  update key (key row) (fun _ => next) (before ++ row :: after) = before ++ next :: after := by
  rw [map_append, map_cons, nodup_middle, nodup_cons,
    ← map_append] at hNodup
  have hOther : ∀ other ∈ before ++ after, key other ≠ key row := by
    intro other hMem hEq
    apply hNodup.1
    rw [← hEq]
    exact List.mem_map_of_mem hMem
  have hPre : update key (key row) (fun _ => next) before = before :=
    update_eq_self fun other hMem => hOther other (mem_append_left after hMem)
  have hAfter : update key (key row) (fun _ => next) after = after :=
    update_eq_self fun other hMem => hOther other (mem_append_right before hMem)
  have hHead : update key (key row) (fun _ => next) (row :: after) = next :: after := by
    unfold update at hAfter ⊢
    rw [map_cons, hAfter, if_pos rfl]
  rw [update_append, hPre, hHead]

/-
  If at most the row that is replaced matched before, then exactly its replacement matches after.
-/
theorem filter_update_eq_singleton
  {p : Row → Bool} {next : Row} (hNodup : (rows.map key).Nodup) (hRow : row ∈ rows)
  (hOnly : ∀ other ∈ rows, p other = true → other = row) (hNext : p next = true) :
  (update key (key row) (fun _ => next) rows).filter p = [next] := by
  rcases append_of_mem hRow with ⟨before, after, hRows⟩
  subst hRows
  have hRest : row ∉ before ++ after := by
    have hRows := hNodup.of_map
    rw [nodup_middle, nodup_cons] at hRows
    exact hRows.1
  have hFalse : ∀ other ∈ before ++ after, ¬p other = true := by
    intro other hMem hP
    have hEq : other = row := by
      apply hOnly other _ hP
      rcases mem_append.mp hMem with hIn | hIn
      · exact mem_append_left _ hIn
      · exact mem_append_right _ (mem_cons_of_mem _ hIn)
    exact hRest (hEq ▸ hMem)
  rw [update_append_cons hNodup, filter_append, filter_cons_of_pos hNext,
    filter_eq_nil_iff.mpr fun other hMem => hFalse other (mem_append_left after hMem),
    filter_eq_nil_iff.mpr fun other hMem => hFalse other (mem_append_right before hMem)]
  rfl

-- Updates of Several Keys

def updateEach (key : Row → κ) (change : Row → Row) (ids : List κ) (rows : List Row) : List Row :=
  ids.foldl (fun rows id => update key id change rows) rows

theorem updateEach_eq_map (ids : List κ) (hKey : ∀ row, key (change row) = key row)
  (hTwice : ∀ row, change (change row) = change row) :
  updateEach key change ids rows = rows.map fun row =>
      if key row ∈ ids then change row else row := by
  induction ids generalizing rows with
  | nil => simp [updateEach]
  | cons id ids ih =>
    have hTail := @ih (update key id change rows)
    unfold updateEach at hTail ⊢
    rw [foldl_cons, hTail]
    unfold update
    rw [List.map_map]
    apply map_congr_left
    intro row _
    by_cases hId : key row = id
    · by_cases hRest : id ∈ ids
      · simp [hId, hKey, hRest, hTwice]
      · simp [hId, hKey, hRest]
    · simp [hId]

omit [DecidableEq κ] in
theorem mem_keys_filter_iff {p : Row → Bool} (hNodup : (rows.map key).Nodup) (hRow : row ∈ rows) :
  key row ∈ (rows.filter p).map key ↔ p row = true := by
  constructor
  · intro hMem
    rcases List.mem_map.mp hMem with ⟨other, hOther, hEq⟩
    rcases List.mem_filter.mp hOther with ⟨hIn, hP⟩
    have hSame : other = row := List.inj_on_of_nodup_map hNodup hIn hRow hEq
    rw [← hSame]
    exact hP
  · intro hP
    apply List.mem_map_of_mem
    exact List.mem_filter.mpr ⟨hRow, hP⟩

theorem updateEach_filter (p : Row → Bool) (hKey : ∀ row, key (change row) = key row)
  (hTwice : ∀ row, change (change row) = change row) (hNodup : (rows.map key).Nodup) :
  updateEach key change ((rows.filter p).map key) rows = rows.map fun row =>
      if p row = true then change row else row := by
  rw [updateEach_eq_map _ hKey hTwice]
  apply map_congr_left
  intro row hRow
  simp only [mem_keys_filter_iff hNodup hRow]

end TsStack.KeyedRows
