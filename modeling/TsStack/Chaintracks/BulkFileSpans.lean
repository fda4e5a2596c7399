import TsStack.Chaintracks.BulkFileReader

/-
  Bulk files that follow each other from height zero, and
  the bytes of their headers.
-/

-- Contiguous Files

open List

namespace TsStack.Chaintracks

def FilesFrom : Nat → List BulkFileSpan → Prop
| _, [] => True
| height, file :: files =>
  file.firstHeight = height ∧ 1 ≤ file.count ∧
    file.count ≤ maxBulkFileHeaders ∧ FilesFrom (height + file.count) files

variable
    {height : Nat} {file : BulkFileSpan}

theorem filesFrom_cons {files : List BulkFileSpan} :
  FilesFrom height (file :: files) ↔ file.firstHeight = height ∧ 1 ≤ file.count ∧
      file.count ≤ maxBulkFileHeaders ∧ FilesFrom (height + file.count) files :=
  Iff.rfl

theorem filesEnd_cons (file : BulkFileSpan) (files : List BulkFileSpan) :
  filesEnd (file :: files) = file.count + filesEnd files :=
  rfl

theorem filesEnd_append (files others : List BulkFileSpan) :
  filesEnd (files ++ others) = filesEnd files + filesEnd others := by
  unfold filesEnd
  rw [map_append, sum_append]

variable {files : List BulkFileSpan}

theorem filesFrom_append {others : List BulkFileSpan} {height : Nat} :
  FilesFrom height (files ++ others) ↔ FilesFrom height files ∧
      FilesFrom (height + filesEnd files) others := by
  induction files generalizing height with
  | nil =>
    simp only [nil_append, FilesFrom, filesEnd,
      map_nil, sum_nil, Nat.add_zero, true_and]
  | cons file files ih =>
    rw [cons_append, filesFrom_cons, filesFrom_cons, ih, filesEnd_cons, ← Nat.add_assoc]
    simp only [and_assoc]

theorem filesFrom_singleton {height : Nat} :
  FilesFrom height [file] ↔ file.firstHeight = height ∧ 1 ≤ file.count ∧
      file.count ≤ maxBulkFileHeaders := by
  rw [filesFrom_cons]
  simp only [FilesFrom, and_true]

theorem filesFrom_pair {other : BulkFileSpan} {height : Nat} :
  FilesFrom height [file, other] ↔ (file.firstHeight = height ∧ 1 ≤ file.count ∧
      file.count ≤ maxBulkFileHeaders) ∧ other.firstHeight = height + file.count ∧
        1 ≤ other.count ∧ other.count ≤ maxBulkFileHeaders := by
  change FilesFrom height ([file] ++ [other]) ↔ _
  rw [filesFrom_append, filesFrom_singleton, filesFrom_singleton]
  rfl

theorem mergeSpans_spec
  {merged : List BulkFileSpan} {merge : BulkMerge} (hFiles : FilesFrom 0 files)
  (hMerge : mergeSpans files merge = some merged) :
  FilesFrom 0 merged ∧ filesEnd files ≤ filesEnd merged := by
  cases merge with
  | add count =>
    unfold mergeSpans at hMerge
    dsimp only at hMerge
    split_ifs at hMerge with hCount
    rw [← Option.some.inj hMerge, filesFrom_append, filesFrom_singleton, filesEnd_append]
    exact ⟨⟨hFiles, (Nat.zero_add _).symm, hCount⟩, Nat.le_add_right _ _⟩
  | growLast count =>
    unfold mergeSpans at hMerge
    dsimp only at hMerge
    cases hReverse : files.reverse with
    | nil =>
      rw [hReverse] at hMerge
      cases hMerge
    | cons last others =>
      rw [hReverse] at hMerge
      dsimp only at hMerge
      split_ifs at hMerge with hCount
      rw [reverse_eq_cons_iff] at hReverse
      rw [hReverse, filesFrom_append, filesFrom_singleton] at hFiles
      rcases hFiles with ⟨hOth, hFst, hPos, _⟩
      rw [← Option.some.inj hMerge, hReverse, filesFrom_append, filesFrom_singleton,
        filesEnd_append, filesEnd_append]
      refine ⟨⟨hOth, hFst, ?_, hCount.2⟩, ?_⟩
      · dsimp only
        omega
      · exact Nat.add_le_add_left hCount.1 _
  | splitLast count =>
    unfold mergeSpans at hMerge
    dsimp only at hMerge
    cases hReverse : files.reverse with
    | nil =>
      rw [hReverse] at hMerge
      cases hMerge
    | cons last others =>
      rw [hReverse] at hMerge
      dsimp only at hMerge
      split_ifs at hMerge with hCount
      rw [reverse_eq_cons_iff] at hReverse
      rw [hReverse, filesFrom_append, filesFrom_singleton] at hFiles
      rcases hFiles with ⟨hOth, hFst, hPos, hMax⟩
      rw [← Option.some.inj hMerge, hReverse, filesFrom_append, filesFrom_pair,
        filesEnd_append, filesEnd_append, filesEnd_cons, filesEnd_cons, filesEnd_cons]
      dsimp only
      refine ⟨⟨hOth, ?_⟩, ?_⟩
      · omega
      · omega
  | shiftLast count =>
    unfold mergeSpans at hMerge
    dsimp only at hMerge
    rcases hReverse : files.reverse with _ | ⟨last, _ | ⟨penultimate, others⟩⟩
    · rw [hReverse] at hMerge
      cases hMerge
    · rw [hReverse] at hMerge
      cases hMerge
    · rw [hReverse] at hMerge
      dsimp only at hMerge
      rw [reverse_eq_cons_iff, reverse_cons, append_assoc] at hReverse
      change files = others.reverse ++ [penultimate, last] at hReverse
      rw [hReverse, filesFrom_append, filesFrom_pair] at hFiles
      rcases hFiles with ⟨hOth, ⟨hFst, hPos, hMax⟩, hLast, hPos', hMax'⟩
      split_ifs at hMerge with hCount hDrop
      · rw [← Option.some.inj hMerge, hReverse, filesFrom_append, filesFrom_singleton,
          filesEnd_append, filesEnd_append, filesEnd_cons, filesEnd_cons, filesEnd_cons]
        dsimp only
        refine ⟨⟨hOth, ?_⟩, ?_⟩
        · omega
        · omega
      · rw [← Option.some.inj hMerge, hReverse, filesFrom_append, filesFrom_pair,
          filesEnd_append, filesEnd_append, filesEnd_cons,
          filesEnd_cons, filesEnd_cons, filesEnd_cons]
        dsimp only
        refine ⟨⟨hOth, ?_⟩, ?_⟩
        · omega
        · omega

variable {start : Nat}

section

variable (hFiles : FilesFrom start files)

include hFiles

theorem exists_file_of_lt (hStart : start ≤ height) (hHeight : height < start + filesEnd files) :
  ∃ file ∈ files, file.firstHeight ≤ height ∧ height < file.nextHeight := by
  induction files generalizing start with
  | nil => exact absurd hHeight (Nat.not_lt.mpr hStart)
  | cons file files ih =>
    rcases hFiles with ⟨hFst, hPos, hMax, hRest⟩
    rw [filesEnd_cons] at hHeight
    by_cases hIn : height < start + file.count
    · refine ⟨file, mem_cons_self, ?_, ?_⟩
      · omega
      · unfold BulkFileSpan.nextHeight
        omega
    · rcases ih hRest (Nat.not_lt.mp hIn) (by omega) with ⟨other, hOther, hSpan⟩
      exact ⟨other, mem_cons_of_mem _ hOther, hSpan⟩

theorem nextHeight_le_of_mem (hFile : file ∈ files) :
  start ≤ file.firstHeight ∧ file.firstHeight < file.nextHeight ∧
      file.nextHeight ≤ start + filesEnd files ∧ file.count ≤ maxBulkFileHeaders := by
  induction files generalizing start with
  | nil => cases hFile
  | cons other files ih =>
    rcases hFiles with ⟨hFst, hPos, hMax, hRest⟩
    rw [filesEnd_cons]
    unfold BulkFileSpan.nextHeight
    rcases mem_cons.mp hFile with rfl | hFile
    · omega
    · have hOther := ih hRest hFile
      unfold BulkFileSpan.nextHeight at hOther
      omega

theorem eq_or_apart {other : BulkFileSpan} (hFile : file ∈ files) (hOther : other ∈ files) :
  file = other ∨ file.nextHeight ≤ other.firstHeight ∨ other.nextHeight ≤ file.firstHeight := by
  induction files generalizing start with
  | nil => cases hFile
  | cons first files ih =>
    rcases hFiles with ⟨hFst, hPos, hMax, hRest⟩
    have hApart : ∀ later ∈ files, first.nextHeight ≤ later.firstHeight := by
      intro later hLater
      have hLe := (nextHeight_le_of_mem hRest hLater).1
      unfold BulkFileSpan.nextHeight
      omega
    rcases mem_cons.mp hFile with hSame | hLater
    · rcases mem_cons.mp hOther with hOther | hOther
      · exact .inl (hSame.trans hOther.symm)
      · rw [hSame]
        exact .inr (Or.inl (hApart other hOther))
    · rcases mem_cons.mp hOther with hOther | hOther
      · rw [hOther]
        exact .inr (Or.inr (hApart file hLater))
      · exact ih hRest hLater hOther

end

theorem getBfdForHeight_eq_some (hFile : getBfdForHeight files height = .ok (some file)) :
  file ∈ files ∧ file.firstHeight ≤ height ∧ height < file.nextHeight := by
  unfold getBfdForHeight at hFile
  split_ifs at hFile
  have hFind := Except.ok.inj hFile
  have hSpan := find?_some hFind
  rw [Bool.and_eq_true, decide_eq_true_eq, decide_eq_true_eq] at hSpan
  exact ⟨mem_of_find?_eq_some hFind, hSpan⟩

theorem getBfdForHeight_eq_none
  (hFiles : FilesFrom 0 files) (hFile : getBfdForHeight files height = .ok none) :
  filesEnd files ≤ height := by
  unfold getBfdForHeight at hFile
  split_ifs at hFile
  have hFind := Except.ok.inj hFile
  by_contra hNot
  rcases exists_file_of_lt hFiles (Nat.zero_le height) (by omega) with ⟨file, hMem, hSpan⟩
  have hNone := find?_eq_none.mp hFind file hMem
  rw [Bool.and_eq_true, decide_eq_true_eq, decide_eq_true_eq] at hNone
  exact hNone hSpan

variable (chain : HeaderBytes)

theorem length_headersFrom (height count : Nat) :
  (headersFrom chain height count).length = count * 80 := by
  unfold headersFrom
  rw [length_map, length_range']

theorem headersFrom_append (height count more : Nat) :
  headersFrom chain height count ++ headersFrom chain (height + count) more =
    headersFrom chain height (count + more) := by
  unfold headersFrom
  rw [← map_append, Nat.add_mul height, Nat.add_mul count, ← range'_append_1]

theorem slice_headersFrom {count first length : Nat} (hLen : first + length ≤ count) :
  ((headersFrom chain height count).drop (first * 80)).take (length * 80) =
    headersFrom chain (height + first) length := by
  have hSplit : headersFrom chain height count = headersFrom chain height first ++
          (headersFrom chain (height + first) length ++
            headersFrom chain (height + first + length) (count - (first + length))) := by
    rw [headersFrom_append, headersFrom_append]
    congr 1
    omega
  rw [hSplit, drop_left' (length_headersFrom chain height first),
    take_left' (length_headersFrom chain _ length)]

end TsStack.Chaintracks
