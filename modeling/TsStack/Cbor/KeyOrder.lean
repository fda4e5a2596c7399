import Mathlib.Data.List.Nodup
import TsStack.Cbor.Content
import TsStack.Lib.Traversal
import TsStack.Primitives.Hex

/-
  The order of map keys, and what the containers of a value
  are encoded as.
-/

-- Comparing Keys

open List

namespace TsStack.Cbor

open UnicodeText

theorem compareBytes_swap (a b : List UInt8) : compareBytes b a = -compareBytes a b := by
  induction a generalizing b with
  | nil => cases b <;> simp only [compareBytes] <;> omega
  | cons x a ih =>
    cases b with
    | nil =>
      simp only [compareBytes]
      omega
    | cons y b =>
      by_cases hSame : x = y
      · subst hSame
        simp only [compareBytes, ne_eq, not_true_eq_false, if_false]
        exact ih b
      · have hSwap : y ≠ x := fun h => hSame h.symm
        simp only [compareBytes, ne_eq, hSame, hSwap, not_false_eq_true, if_true]
        omega

theorem compareBytes_eq_zero_iff (a b : List UInt8) : compareBytes a b = 0 ↔ a = b := by
  induction a generalizing b with
  | nil =>
    cases b with
    | nil => simp only [compareBytes, length_nil, sub_self]
    | cons y b =>
      simp only [compareBytes, length_nil, length_cons, reduceCtorEq, iff_false]
      omega
  | cons x a ih =>
    cases b with
    | nil =>
      simp only [compareBytes, length_nil, length_cons, reduceCtorEq, iff_false]
      omega
    | cons y b =>
      by_cases hSame : x = y
      · subst hSame
        simp only [compareBytes, ne_eq, not_true_eq_false, if_false, ih, List.cons.injEq, true_and]
      · have hNat : x.toNat ≠ y.toNat := fun h => hSame (UInt8.toNat_inj.mp h)
        simp only [compareBytes, ne_eq, hSame, not_false_eq_true, if_true, List.cons.injEq,
          false_and, iff_false]
        omega

theorem compareBytes_trans
  {a b c : List UInt8} (hFst : compareBytes a b ≤ 0) (hSnd : compareBytes b c ≤ 0) :
  compareBytes a c ≤ 0 := by
  induction a generalizing b c with
  | nil =>
    cases c <;> simp only [compareBytes, length_nil] <;>
      omega
  | cons x a ih =>
    cases b with
    | nil =>
      simp only [compareBytes, length_nil, length_cons] at hFst
      omega
    | cons y b =>
    cases c with
    | nil =>
      simp only [compareBytes, length_nil, length_cons] at hSnd
      omega
    | cons z c =>
      simp only [compareBytes] at hFst hSnd ⊢
      by_cases hXy : x = y
      · subst hXy
        by_cases hXz : x = z
        · subst hXz
          simp only [ne_eq, not_true_eq_false, if_false] at hFst hSnd ⊢
          exact ih hFst hSnd
        · simp only [ne_eq, hXz, not_false_eq_true, if_true] at hSnd ⊢
          exact hSnd
      · simp only [ne_eq, hXy, not_false_eq_true, if_true] at hFst
        have hNat : x.toNat ≠ y.toNat := fun h => hXy (UInt8.toNat_inj.mp h)
        have hLess : x.toNat < y.toNat := by omega
        have hNext : y.toNat ≤ z.toNat := by
          by_cases hYz : y = z
          · rw [hYz]
          · simp only [ne_eq, hYz, not_false_eq_true, if_true] at hSnd
            omega
        have hXz : x ≠ z := by
          rintro rfl
          omega
        simp only [ne_eq, hXz, not_false_eq_true, if_true]
        omega

-- Sorted Entries

abbrev CborEntries := List (CborText × StrictCborValue)

/- The order of two encoded keys. -/
def keyLe (a b : List UInt8) : Bool :=
  decide (compareBytes a b ≤ 0)

theorem keyLe_trans (a b c : List UInt8) (hFst : keyLe a b = true) (hSnd : keyLe b c = true) :
  keyLe a c = true :=
  decide_eq_true (compareBytes_trans (of_decide_eq_true hFst) (of_decide_eq_true hSnd))

theorem keyLe_total (a b : List UInt8) : (keyLe a b || keyLe b a) = true := by
  have hSwap := compareBytes_swap a b
  unfold keyLe
  rw [Bool.or_eq_true, decide_eq_true_iff, decide_eq_true_iff]
  omega

/- The entries as the encoder writes them. -/
def sortEntries (entries : CborEntries) : CborEntries :=
  entries.mergeSort fun a b => keyLe (encodedText a.1) (encodedText b.1)

/- Every key comes strictly before the keys after it. -/
def Ascending (entries : CborEntries) : Prop :=
  entries.Pairwise fun a b => compareBytes (encodedText a.1) (encodedText b.1) < 0

variable {entries : CborEntries}

theorem sortEntries_of_ascending (hAscending : Ascending entries) :
  sortEntries entries = entries := by
  apply mergeSort_of_pairwise
  apply hAscending.imp
  intro a b hLess
  exact decide_eq_true (le_of_lt hLess)

theorem sortEntries_perm (entries : CborEntries) : (sortEntries entries).Perm entries :=
  mergeSort_perm _ _

def ValidKeys (entries : CborEntries) : Prop :=
  (∀ entry ∈ entries, UnicodeText.isWellFormed entry.1 = true) ∧
    (entries.map (encodedText ·.1)).Nodup

theorem ascending_sortEntries (hKeys : (entries.map (encodedText ·.1)).Nodup) :
  Ascending (sortEntries entries) := by
  have hSorted :
      (sortEntries entries).Pairwise fun a b =>
        keyLe (encodedText a.1) (encodedText b.1) = true := by
    apply pairwise_mergeSort
    · intro a b c
      exact keyLe_trans _ _ _
    · intro a b
      exact keyLe_total _ _
  have hNodup : ((sortEntries entries).map (encodedText ·.1)).Nodup :=
    ((sortEntries_perm entries).map _).nodup_iff.mpr hKeys
  have hDist := pairwise_map.mp hNodup
  apply (hSorted.and hDist).imp
  rintro a b ⟨hLe, hNe⟩
  have hLess := of_decide_eq_true hLe
  have hZero := (compareBytes_eq_zero_iff _ _).not.mpr hNe
  omega

theorem nodup_of_ascending (hAscending : Ascending entries) :
  (entries.map (encodedText ·.1)).Nodup := by
  apply pairwise_map.mpr
  apply hAscending.imp
  intro a b hLess hSame
  have hZero := (compareBytes_eq_zero_iff _ _).mpr hSame
  omega

theorem ascending_cons (entry : CborText × StrictCborValue) (entries : CborEntries) :
  Ascending (entry :: entries) ↔ (∀ other ∈ entries, compareBytes (encodedText entry.1)
        (encodedText other.1) < 0) ∧ Ascending entries :=
  pairwise_cons

theorem eq_of_ascending {others : CborEntries} (hEnts : Ascending entries) (hOth : Ascending others)
  (hMembers : ∀ entry, entry ∈ entries ↔ entry ∈ others) : entries = others := by
  have hPerm : entries.Perm others :=
    (perm_ext_iff_of_nodup (List.Nodup.of_map _ (nodup_of_ascending hEnts))
      (List.Nodup.of_map _ (nodup_of_ascending hOth))).mpr hMembers
  refine hPerm.eq_of_pairwise ?_ hEnts hOth
  intro a b _ _ hLess hGreater
  rw [compareBytes_swap] at hGreater
  omega

variable {entry : CborText × StrictCborValue}

theorem compareBytes_lt_of_ascending
  {before : List UInt8} (hPre : compareBytes before (encodedText entry.1) < 0)
  (hAscending : Ascending (entry :: entries)) :
  ∀ other ∈ entry :: entries, compareBytes before (encodedText other.1) < 0 := by
  rcases (ascending_cons _ _).mp hAscending with ⟨hRest, -⟩
  intro other hOther
  rcases mem_cons.mp hOther with rfl | hTail
  · exact hPre
  have hNext := hRest other hTail
  have hLe := compareBytes_trans (le_of_lt hPre) (le_of_lt hNext)
  by_contra hNot
  have hZero : compareBytes before (encodedText other.1) = 0 := by omega
  rw [(compareBytes_eq_zero_iff _ _).mp hZero, compareBytes_swap] at hPre
  omega

-- Encoded Containers

variable {encode : StrictCborValue → Encoded}

theorem encodeArray_eq_ok_iff {items : List StrictCborValue} {tokens : List UInt8} :
  encodeArray encode items = .ok tokens ↔ ∃ parts,
      List.Forall₂ (fun item part => encode item = .ok part) items parts ∧
        tokens = header 4 items.length ++ parts.flatten := by
  unfold encodeArray
  rw [bind_eq_ok_iff]
  constructor
  · rintro ⟨parts, hParts, hTokens⟩
    exact ⟨parts, Traversal.mapM_eq_ok_iff.mp hParts, (Except.ok.inj hTokens).symm⟩
  · rintro ⟨parts, hParts, rfl⟩
    exact ⟨parts, Traversal.mapM_eq_ok_iff.mpr hParts, rfl⟩

def EntryTokens (encode : StrictCborValue → Encoded) (entry : CborText × StrictCborValue)
  (tokens : List UInt8) : Prop :=
  ∃ value, encode entry.2 = .ok value ∧ tokens = encodedText entry.1 ++ value

theorem encodeKey_eq_ok_iff {keyed : List UInt8 × StrictCborValue} :
  encodeKey entry = .ok keyed ↔ isWellFormed entry.1 = true ∧
      keyed = (encodedText entry.1, entry.2) := by
  unfold encodeKey encodeText
  by_cases hKey : isWellFormed entry.1 = true
  · rw [if_pos hKey]
    constructor
    · intro hRun
      exact ⟨hKey, (Except.ok.inj hRun).symm⟩
    · rintro ⟨-, rfl⟩
      rfl
  · rw [if_neg hKey]
    constructor
    · intro hRun
      cases hRun
    · intro hBoth
      exact absurd hBoth.1 hKey

theorem mapM_encodeKey_eq_ok_iff {keyed : List (List UInt8 × StrictCborValue)} :
  entries.mapM encodeKey = .ok keyed ↔ (∀ entry ∈ entries,
      isWellFormed entry.1 = true) ∧
      keyed = entries.map fun entry => (encodedText entry.1, entry.2) := by
  rw [Traversal.mapM_eq_ok_iff]
  induction entries generalizing keyed with
  | nil =>
    rw [forall₂_nil_left_iff]
    constructor
    · rintro rfl
      exact ⟨fun _ h => absurd h not_mem_nil, rfl⟩
    · exact fun h => h.2
  | cons entry entries ih =>
    rw [forall₂_cons_left_iff]
    constructor
    · rintro ⟨first, rest, hFst, hRest, rfl⟩
      rcases encodeKey_eq_ok_iff.mp hFst with ⟨hKey, rfl⟩
      rcases ih.mp hRest with ⟨hKeys, rfl⟩
      exact ⟨forall_mem_cons.mpr ⟨hKey, hKeys⟩, rfl⟩
    · rintro ⟨hKeys, rfl⟩
      rcases forall_mem_cons.mp hKeys with ⟨hKey, hRest⟩
      exact ⟨_, _, encodeKey_eq_ok_iff.mpr ⟨hKey, rfl⟩, ih.mpr ⟨hRest, rfl⟩, rfl⟩

theorem encodeEntry_eq_ok_iff {tokens : List UInt8} :
  encodeEntry encode (encodedText entry.1, entry.2) = .ok tokens ↔
    EntryTokens encode entry tokens := by
  unfold encodeEntry EntryTokens
  rw [bind_eq_ok_iff]
  constructor
  · rintro ⟨value, hValue, hTokens⟩
    exact ⟨value, hValue, (Except.ok.inj hTokens).symm⟩
  · rintro ⟨value, hValue, rfl⟩
    exact ⟨value, hValue, rfl⟩

/- The entries are written in the order of their keys. -/
theorem encodeMap_eq_ok_iff {tokens : List UInt8} :
  encodeMap encode entries = .ok tokens ↔ (∀ entry ∈ entries,
      isWellFormed entry.1 = true) ∧
      ∃ parts, List.Forall₂ (EntryTokens encode) (sortEntries entries) parts ∧
          tokens = header 5 entries.length ++ parts.flatten := by
  have hSort :
      (entries.map fun entry =>
        (encodedText entry.1, entry.2)).mergeSort (fun a b => decide (compareBytes a.1 b.1 ≤ 0)) =
        (sortEntries entries).map fun entry => (encodedText entry.1, entry.2) := by
    symm
    apply map_mergeSort
    intro a _ b _
    rfl
  have hParts : ∀ parts : List (List UInt8), ((sortEntries entries).map fun entry =>
        (encodedText entry.1, entry.2)).mapM (encodeEntry encode) = .ok parts ↔
        List.Forall₂ (EntryTokens encode) (sortEntries entries) parts := by
    intro parts
    rw [Traversal.mapM_eq_ok_iff, forall₂_map_left_iff]
    simp only [encodeEntry_eq_ok_iff]
  unfold encodeMap
  rw [bind_eq_ok_iff]
  constructor
  · rintro ⟨keyed, hKeyed, hRun⟩
    rcases mapM_encodeKey_eq_ok_iff.mp hKeyed with ⟨hKeys, rfl⟩
    simp only [hSort] at hRun
    rcases bind_eq_ok_iff.mp hRun with ⟨parts, hEach, hTokens⟩
    exact ⟨hKeys, parts, (hParts parts).mp hEach, (Except.ok.inj hTokens).symm⟩
  · rintro ⟨hKeys, parts, hEach, rfl⟩
    refine ⟨_, mapM_encodeKey_eq_ok_iff.mpr ⟨hKeys, rfl⟩, ?_⟩
    simp only [hSort]
    rw [bind_eq_ok_iff]
    exact ⟨parts, (hParts parts).mpr hEach, rfl⟩

end TsStack.Cbor
