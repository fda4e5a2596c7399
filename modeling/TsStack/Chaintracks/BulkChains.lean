import Mathlib.Data.List.TakeWhile
import TsStack.Chaintracks.LiveChain

/-
  The choice of the bulk chain among headers sorted by
  height: `buildBulkHeaderChains` of
  `Storage/ChaintracksStorageBase.ts`.
-/

-- Bulk Chains

open List Option

namespace TsStack.Chaintracks

/-
  `AddBulkHeadersChain`; the headers before the last one are
  listed from the latest on, and a chain is never empty.
-/
structure AddBulkHeadersChain where
  tip : BlockHeader
  before : List BlockHeader
  chainWork : Nat
  bulkChainWork : Option Nat
deriving DecidableEq, Repr

def follows (parent header : BlockHeader) : Bool :=
  parent.height + 1 = header.height ∧ parent.hash = header.previousHash

/- The header at the end of `extendedChain`. -/
def extendChain (maxHeight : Int) (header : BlockHeader) (headerWork : Nat)
  (chain : AddBulkHeadersChain) : Except ChaintracksError AddBulkHeadersChain := do
  let chainWork ← addWork chain.chainWork headerWork
  return {
    tip := header
    before := chain.tip :: chain.before
    chainWork := chainWork
    bulkChainWork := if header.height ≤ maxHeight then some chainWork else chain.bulkChainWork }

def findForkedChain (header : BlockHeader) :
  List AddBulkHeadersChain → Except ChaintracksError (Option AddBulkHeadersChain)
| [] => .ok none
| chain :: chains =>
  match chain.before with
  | [] => .error (.typeError "Cannot read properties of undefined (reading 'height')")
  | parent :: _ =>
    if follows parent header then .ok (some chain)
    else findForkedChain header chains

/- The header in the place of the last one of `forkedChain`. -/
def forkChain (chain : Chain) (maxHeight : Int) (header : BlockHeader) (headerWork : Nat)
  (forkedChain : AddBulkHeadersChain) : Except ChaintracksError AddBulkHeadersChain := do
  let replacedTipWork ← convertBitsToWork forkedChain.tip.bits chain
  let parentWork ← subWork forkedChain.chainWork replacedTipWork
  let forkWork ← addWork parentWork headerWork
  return {
    tip := header
    before := forkedChain.before
    chainWork := forkWork
    bulkChainWork := if header.height ≤ maxHeight then some forkWork else none }

def addHeaderToBulkChains (chain : Chain) (maxHeight : Int) (chains : List AddBulkHeadersChain)
  (header : BlockHeader) : Except ChaintracksError (List AddBulkHeadersChain) :=
  if chains.any (·.tip.hash = header.hash) then .ok chains
  else do
    let headerWork ← convertBitsToWork header.bits chain
    match chains.dropWhile (!follows ·.tip header) with
    | extendedChain :: later => do
      let extended ← extendChain maxHeight header headerWork extendedChain
      return chains.takeWhile (!follows ·.tip header) ++ extended :: later
    | [] => do
      match ← findForkedChain header chains with
      | some forkedChain => do
        let fork ← forkChain chain maxHeight header headerWork forkedChain
        return chains ++ [fork]
      | none =>
        return chains ++ [{
          tip := header
          before := []
          chainWork := headerWork
          bulkChainWork := if header.height ≤ maxHeight then some headerWork else none }]

inductive RootPath (headers : List BlockHeader) : BlockHeader → List BlockHeader → Prop
| root {header} :
    header ∈ headers → (∀ parent ∈ headers, follows parent header = false) →
    RootPath headers header []
| next {parent before header} :
    RootPath headers parent before → header ∈ headers → follows parent header = true →
    RootPath headers header (parent :: before)

variable (headers : List BlockHeader)

/- A linked chain that can be extended at neither end. -/
def MaximalChain (tip : BlockHeader) (before : List BlockHeader) : Prop :=
  RootPath headers tip before ∧ ∀ header ∈ headers, follows tip header = false

def pathWork (path : List BlockHeader) : Nat :=
  (path.map fun header => targetWork (convertBitsToTarget header.bits)).sum

/-
  The header that began the chain of another: the nearest one on its way down that is not the
  first after its parent.
-/
inductive BegunBy (headers : List BlockHeader) : BlockHeader → BlockHeader → Prop
| begins {header} :
    header ∈ headers → (∀ parent ∈ headers, headers.find? (follows parent) ≠ some header) →
    BegunBy headers header header
| first {opener parent header} :
    BegunBy headers opener parent → headers.find? (follows parent) = some header →
    BegunBy headers opener header

def Alone (header : BlockHeader) : Prop :=
  header ∈ headers ∧ (∀ parent ∈ headers, follows parent header = false) ∧
    ∀ child ∈ headers, follows header child = false

/-
  A new header is the first after its parent, or every earlier header that is alone came after the
  beginning of the chain of its parent.
-/
def JoinsChain (header : BlockHeader) : Prop :=
  (∃ parent ∈ headers, follows parent header = true ∧
    ∀ child ∈ headers, follows parent child = false) ∨
  ∀ alone, Alone headers alone → ∃ parent opener, follows parent header = true ∧
    BegunBy headers opener parent ∧ headers.idxOf opener < headers.idxOf alone

structure Joins (chain : Chain) (headers : List BlockHeader) (header : BlockHeader) : Prop where
  bits : ∃ target, validateCompactTarget header.bits chain = .ok target
  work : ∀ parent before, RootPath headers parent before → follows parent header = true →
    pathWork (header :: parent :: before) < 2 ^ 256
  place : JoinsChain headers header

def keepHeader (header : BlockHeader) : List BlockHeader :=
  if headers.any (fun earlier =>
      earlier.hash = header.hash ∧ headers.all (!follows earlier ·)) then headers
  else headers ++ [header]

/- Every header kept meets the condition when it comes. -/
def AllJoin (chain : Chain) : List BlockHeader → List BlockHeader → Prop
| _, [] => True
| headers, header :: rest =>
  (keepHeader headers header = headers ∨ Joins chain headers header) ∧
    AllJoin chain (keepHeader headers header) rest

-- Paths

structure Kept (headers : List BlockHeader) : Prop where
  sorted : headers.Pairwise (·.height ≤ ·.height)
  unique : ∀ first ∈ headers, ∀ second ∈ headers, first.height = second.height →
    first.hash = second.hash → first = second

variable {headers : List BlockHeader} {header parent tip opener : BlockHeader}
variable {before : List BlockHeader} {chains : List AddBulkHeadersChain}

theorem follows_iff : follows parent header = true ↔
    parent.height + 1 = header.height ∧ parent.hash = header.previousHash := by
  simp [follows]

theorem follows_eq_false_of_le (hHeight : header.height ≤ parent.height) :
  follows parent header = false := by
  rw [Bool.eq_false_iff, ne_eq, follows_iff]
  omega

theorem Kept.parent_eq
  {other : BlockHeader} (hKept : Kept headers) (hIn : parent ∈ headers) (hOther : other ∈ headers)
  (hFoll : follows parent header = true) (hAlso : follows other header = true) :
  parent = other := by
  rcases follows_iff.mp hFoll with ⟨hHeight, hHash⟩
  rcases follows_iff.mp hAlso with ⟨hOtherHeight, hOtherHash⟩
  exact hKept.unique _ hIn _ hOther (by omega) (hHash.trans hOtherHash.symm)

theorem RootPath.mem_of_mem (hPath : RootPath headers tip before) (hIn : header ∈ tip :: before) :
  header ∈ headers := by
  induction hPath with
  | root hTip _ => rwa [mem_singleton.mp hIn]
  | next _ hTip _ ih =>
    rcases mem_cons.mp hIn with rfl | hIn
    · exact hTip
    · exact ih hIn

theorem RootPath.mem (hPath : RootPath headers tip before) : tip ∈ headers :=
  hPath.mem_of_mem mem_cons_self

theorem RootPath.exists (hIn : tip ∈ headers) : ∃ before, RootPath headers tip before := by
  induction hHeight : tip.height using Nat.strong_induction_on generalizing tip with
  | _ height ih =>
    by_cases hParent : ∃ parent ∈ headers, follows parent tip = true
    · rcases hParent with ⟨parent, hParent, hFoll⟩
      have hLt := (follows_iff.mp hFoll).1
      rcases ih parent.height (by omega) hParent rfl with ⟨before, hPath⟩
      exact ⟨_, .next hPath hIn hFoll⟩
    · exact ⟨_, .root hIn fun parent hOther =>
        Bool.eq_false_iff.mpr fun hFoll => hParent ⟨parent, hOther, hFoll⟩⟩

theorem RootPath.eq
  {other : List BlockHeader} (hKept : Kept headers) (hPath : RootPath headers tip before)
  (hOther : RootPath headers tip other) : before = other := by
  induction hPath generalizing other with
  | root _ hRoot =>
    cases hOther with
    | root _ _ => rfl
    | next hParent _ hFoll => exact absurd hFoll (by simp [hRoot _ hParent.mem])
  | next hParent _ hFoll ih =>
    cases hOther with
    | root _ hRoot => exact absurd hFoll (by simp [hRoot _ hParent.mem])
    | next hOther _ hAlso =>
      cases hKept.parent_eq hParent.mem hOther.mem hFoll hAlso
      rw [ih hOther]

-- Beginnings

theorem BegunBy.mem (hBegun : BegunBy headers opener tip) : opener ∈ headers ∧ tip ∈ headers := by
  induction hBegun with
  | begins hIn _ => exact ⟨hIn, hIn⟩
  | first _ hFirst ih => exact ⟨ih.1, mem_of_find?_eq_some hFirst⟩

theorem BegunBy.exists (hIn : tip ∈ headers) : ∃ opener, BegunBy headers opener tip := by
  induction hHeight : tip.height using Nat.strong_induction_on generalizing tip with
  | _ height ih =>
    by_cases hFirst : ∃ parent ∈ headers, headers.find? (follows parent) = some tip
    · rcases hFirst with ⟨parent, hParent, hFirst⟩
      have hLt := (follows_iff.mp (find?_some hFirst)).1
      rcases ih parent.height (by omega) hParent rfl with ⟨opener, hBegun⟩
      exact ⟨_, .first hBegun hFirst⟩
    · exact ⟨_, .begins hIn fun parent hParent hEq => hFirst ⟨parent, hParent, hEq⟩⟩

theorem BegunBy.eq
  {other : BlockHeader} (hKept : Kept headers) (hBegun : BegunBy headers opener tip)
  (hOther : BegunBy headers other tip) : opener = other := by
  induction hBegun with
  | begins _ hBegins =>
    cases hOther with
    | begins _ _ => rfl
    | first hParent hFirst => exact absurd hFirst (hBegins _ hParent.mem.2)
  | first hParent hFirst ih =>
    cases hOther with
    | begins _ hBegins => exact absurd hFirst (hBegins _ hParent.mem.2)
    | first hOther hAlso =>
      cases hKept.parent_eq hParent.mem.2 hOther.mem.2
        (find?_some hFirst) (find?_some hAlso)
      exact ih hOther

theorem Kept.idxOf_lt (hKept : Kept headers) (hParent : parent ∈ headers) (hIn : header ∈ headers)
  (hLt : parent.height < header.height) : headers.idxOf parent < headers.idxOf header := by
  have hLeft := idxOf_lt_length_of_mem hParent
  have hRight := idxOf_lt_length_of_mem hIn
  rcases Nat.lt_trichotomy (headers.idxOf parent) (headers.idxOf header) with hOk | hEq | hGt
  · exact hOk
  · have hSame : parent = header := by
      rw [← getElem_idxOf hLeft, ← getElem_idxOf hRight]
      simp only [hEq]
    rw [hSame] at hLt
    exact absurd hLt (Nat.lt_irrefl _)
  · have hLe := pairwise_iff_getElem.mp hKept.sorted _ _ hRight hLeft hGt
    rw [getElem_idxOf hLeft, getElem_idxOf hRight] at hLe
    omega

theorem BegunBy.idxOf_le (hKept : Kept headers) (hBegun : BegunBy headers opener tip) :
  headers.idxOf opener ≤ headers.idxOf tip := by
  induction hBegun with
  | begins _ _ => exact Nat.le_refl _
  | first hParent hFirst ih =>
    have hLt := (follows_iff.mp (find?_some hFirst)).1
    exact ih.trans (hKept.idxOf_lt hParent.mem.2 (mem_of_find?_eq_some hFirst) (by omega)).le

-- A New Header

structure Newest (headers : List BlockHeader) (header : BlockHeader) : Prop where
  kept : Kept headers
  top : ∀ earlier ∈ headers, earlier.height ≤ header.height
  followed : ∀ earlier ∈ headers, earlier.hash = header.hash →
    ∃ child ∈ headers, follows earlier child = true

section

variable (hNew : Newest headers header)
include hNew

theorem Newest.notMem : header ∉ headers := by
  intro hIn
  rcases hNew.followed _ hIn rfl with ⟨child, hChild, hFoll⟩
  rw [follows_eq_false_of_le (hNew.top _ hChild)] at hFoll
  cases hFoll

theorem Newest.keep : Kept (headers ++ [header]) where
  sorted := pairwise_append.mpr ⟨hNew.kept.sorted, pairwise_singleton _ _,
    fun earlier hIn last hLast => by
      cases mem_singleton.mp hLast
      exact hNew.top _ hIn⟩
  unique := by
    have hNone : ∀ earlier ∈ headers, earlier.height = header.height →
        earlier.hash ≠ header.hash := by
      intro earlier hIn hHeight hHash
      rcases hNew.followed _ hIn hHash with ⟨child, hChild, hFoll⟩
      rw [follows_eq_false_of_le ((hNew.top _ hChild).trans hHeight.ge)] at hFoll
      cases hFoll
    intro first hFirst second hSnd hHeight hHash
    rcases mem_append.mp hFirst with hFirst | hFirst <;>
      rcases mem_append.mp hSnd with hSnd | hSnd
    · exact hNew.kept.unique _ hFirst _ hSnd hHeight hHash
    · cases mem_singleton.mp hSnd
      exact absurd hHash (hNone _ hFirst hHeight)
    · cases mem_singleton.mp hFirst
      exact absurd hHash.symm (hNone _ hSnd hHeight.symm)
    · rw [mem_singleton.mp hFirst, mem_singleton.mp hSnd]

theorem Newest.follows_eq_false {other : BlockHeader} (hOther : other ∈ headers ++ [header]) :
  follows header other = false := by
  refine follows_eq_false_of_le ?_
  rcases mem_append.mp hOther with hOther | hOther
  · exact hNew.top _ hOther
  · rw [mem_singleton.mp hOther]

theorem Newest.rootPath (hPath : RootPath headers tip before) :
  RootPath (headers ++ [header]) tip before := by
  induction hPath with
  | root hIn hRoot =>
    refine .root (mem_append_left _ hIn) fun parent hParent => ?_
    rcases mem_append.mp hParent with hParent | hParent
    · exact hRoot _ hParent
    · rw [mem_singleton.mp hParent]
      exact hNew.follows_eq_false (mem_append_left _ hIn)
  | next _ hIn hFoll ih => exact .next ih (mem_append_left _ hIn) hFoll

theorem Newest.of_rootPath (hIn : tip ∈ headers)
  (hPath : RootPath (headers ++ [header]) tip before) : RootPath headers tip before := by
  rcases RootPath.exists hIn with ⟨other, hOther⟩
  rwa [hPath.eq hNew.keep (hNew.rootPath hOther)]

theorem Newest.begunBy (hBegun : BegunBy headers opener tip) :
  BegunBy (headers ++ [header]) opener tip := by
  induction hBegun with
  | begins hIn hBegins =>
    refine .begins (mem_append_left _ hIn) fun parent hParent hFirst => ?_
    have hFoll := find?_some hFirst
    rcases mem_append.mp hParent with hParent | hParent
    · rw [find?_append, or_eq_some_iff] at hFirst
      rcases hFirst with hFirst | ⟨_, hFirst⟩
      · exact hBegins _ hParent hFirst
      · have hEq := mem_of_find?_eq_some hFirst
        rw [← mem_singleton.mp hEq] at hNew
        exact hNew.notMem hIn
    · rw [mem_singleton.mp hParent, hNew.follows_eq_false (mem_append_left _ hIn)]
        at hFoll
      cases hFoll
  | first _ hFirst ih =>
    refine .first ih ?_
    rw [find?_append, hFirst, some_or]

theorem Newest.of_begunBy (hIn : tip ∈ headers)
  (hBegun : BegunBy (headers ++ [header]) opener tip) : BegunBy headers opener tip := by
  rcases BegunBy.exists hIn with ⟨other, hOther⟩
  rwa [hBegun.eq hNew.keep (hNew.begunBy hOther)]

end

-- The Chains Kept

def Earlier (headers : List BlockHeader) (first second : AddBulkHeadersChain) : Prop :=
  ∀ opener other, BegunBy headers opener first.tip → BegunBy headers other second.tip →
    headers.idxOf opener < headers.idxOf other

structure BulkChains
  (chain : Chain) (headers : List BlockHeader) (chains : List AddBulkHeadersChain) : Prop where
  bits : ∀ header ∈ headers, ∃ target, validateCompactTarget header.bits chain = .ok target
  maximal : ∀ c ∈ chains, MaximalChain headers c.tip c.before
  complete : ∀ tip before, MaximalChain headers tip before → ∃ c ∈ chains, c.tip = tip
  covers : ∀ header ∈ headers, ∃ c ∈ chains, header ∈ c.tip :: c.before
  order : chains.Pairwise (Earlier headers)
  work : ∀ c ∈ chains, c.chainWork = pathWork (c.tip :: c.before)
  bound : ∀ c ∈ chains, c.before ≠ [] → c.chainWork < 2 ^ 256

variable {chain : Chain} {maxHeight : Int} {work : Nat} {new forked : AddBulkHeadersChain}
variable {kept : List AddBulkHeadersChain}

theorem Newest.earlier {first second : AddBulkHeadersChain} (hNew : Newest headers header)
  (hFirst : first.tip ∈ headers) (hSnd : second.tip ∈ headers)
  (hEarlier : Earlier headers first second) : Earlier (headers ++ [header]) first second := by
  intro opener other hBegun hOther
  have hBegun := hNew.of_begunBy hFirst hBegun
  have hOther := hNew.of_begunBy hSnd hOther
  rw [idxOf_append_of_mem hBegun.mem.1, idxOf_append_of_mem hOther.mem.1]
  exact hEarlier _ _ hBegun hOther

section

variable (hChains : BulkChains chain headers chains) (hNew : Newest headers header)

include hChains hNew

theorem BulkChains.keep
  (hMem : ∀ c, c ∈ kept ↔ (c ∈ chains ∧ follows c.tip header = false) ∨ c = new)
  (hTip : new.tip = header) (hPath : RootPath (headers ++ [header]) header new.before)
  (hBits : ∃ target, validateCompactTarget header.bits chain = .ok target)
  (hWork : new.chainWork = pathWork (header :: new.before))
  (hBound : new.before ≠ [] → new.chainWork < 2 ^ 256)
  (hOrder : kept.Pairwise (Earlier (headers ++ [header]))) :
  BulkChains chain (headers ++ [header]) kept where
  bits := by
    intro other hOther
    rcases mem_append.mp hOther with hOther | hOther
    · exact hChains.bits _ hOther
    · rwa [mem_singleton.mp hOther]
  maximal := by
    intro c hIn
    rcases (hMem c).mp hIn with ⟨hIn, hNot⟩ | rfl
    · refine ⟨hNew.rootPath (hChains.maximal _ hIn).1, fun other hOther => ?_⟩
      rcases mem_append.mp hOther with hOther | hOther
      · exact (hChains.maximal _ hIn).2 _ hOther
      · rwa [mem_singleton.mp hOther]
    · rw [hTip]
      exact ⟨hPath, fun other hOther => hNew.follows_eq_false hOther⟩
  complete := by
    intro tip before hMax
    rcases mem_append.mp hMax.1.mem with hIn | hIn
    · rcases hChains.complete tip before ⟨hNew.of_rootPath hIn hMax.1,
        fun other hOther => hMax.2 _ (mem_append_left _ hOther)⟩ with ⟨c, hC, rfl⟩
      exact ⟨c, (hMem c).mpr (.inl ⟨hC, hMax.2 _ (by simp)⟩), rfl⟩
    · exact ⟨new, (hMem new).mpr (.inr rfl), hTip.trans (mem_singleton.mp hIn).symm⟩
  covers := by
    intro other hOther
    rcases mem_append.mp hOther with hOther | hOther
    · rcases hChains.covers _ hOther with ⟨c, hC, hIn⟩
      cases hFoll : follows c.tip header with
      | false => exact ⟨c, (hMem c).mpr (.inl ⟨hC, hFoll⟩), hIn⟩
      | true =>
        -- The chain ended here goes on with the header.
        have hNext := RootPath.next (hNew.rootPath (hChains.maximal _ hC).1)
          (mem_append_right _ (mem_singleton_self header)) hFoll
        refine ⟨new, (hMem new).mpr (.inr rfl), mem_cons_of_mem _ ?_⟩
        rwa [hPath.eq hNew.keep hNext]
    · refine ⟨new, (hMem new).mpr (.inr rfl), ?_⟩
      rw [mem_singleton.mp hOther, hTip]
      exact mem_cons_self
  order := hOrder
  work := by
    intro c hIn
    rcases (hMem c).mp hIn with ⟨hIn, _⟩ | rfl
    · exact hChains.work _ hIn
    · rw [hTip, hWork]
  bound := by
    intro c hIn
    rcases (hMem c).mp hIn with ⟨hIn, _⟩ | rfl
    · exact hChains.bound _ hIn
    · exact hBound

theorem BulkChains.chain_of_parent
  (hNone : ∀ c ∈ chains, follows c.tip header = false) (hParent : parent ∈ headers)
  (hFoll : follows parent header = true) :
  ∃ c ∈ chains, headers.find? (follows parent) = some c.tip ∧
    ∃ before, c.before = parent :: before := by
  rcases RootPath.exists hParent with ⟨before, hPath⟩
  cases hFirst : headers.find? (follows parent) with
  | none =>
    rcases hChains.complete _ _ ⟨hPath, fun child hChild => by
      simpa using find?_eq_none.mp hFirst child hChild⟩ with ⟨c, hC, rfl⟩
    rw [hNone _ hC] at hFoll
    cases hFoll
  | some child =>
    have hChild := mem_of_find?_eq_some hFirst
    have hAfter := find?_some hFirst
    have hHeight : child.height = header.height :=
      (follows_iff.mp hAfter).1.symm.trans (follows_iff.mp hFoll).1
    have hNext := RootPath.next hPath hChild hAfter
    rcases hChains.complete _ _ ⟨hNext, fun other hOther =>
      follows_eq_false_of_le ((hNew.top _ hOther).trans hHeight.ge)⟩ with ⟨c, hC, rfl⟩
    exact ⟨c, hC, rfl, before, (hChains.maximal _ hC).1.eq hNew.kept hNext⟩

theorem BulkChains.order_append
  (hTip : new.tip = header) (hNone : ∀ c ∈ chains, follows c.tip header = false) :
  (chains ++ [new]).Pairwise (Earlier (headers ++ [header])) := by
  have hMem : ∀ c ∈ chains, c.tip ∈ headers := fun c hC => (hChains.maximal c hC).1.mem
  refine pairwise_append.mpr ⟨?_, pairwise_singleton _ _, ?_⟩
  · exact hChains.order.imp_of_mem fun hFirst hSnd =>
      hNew.earlier (hMem _ hFirst) (hMem _ hSnd)
  · intro c hC last hLast opener other hBegun hOther
    cases mem_singleton.mp hLast
    have hBegun := hNew.of_begunBy (hMem _ hC) hBegun
    have hBegins : BegunBy (headers ++ [header]) header header := by
      refine .begins (by simp) fun parent hParent hFirst => ?_
      have hFoll := find?_some hFirst
      rw [find?_append, or_eq_some_iff] at hFirst
      rcases mem_append.mp hParent with hParent | hParent
      · rcases hChains.chain_of_parent hNew hNone hParent hFoll with ⟨c, hC, hFound, _⟩
        rw [hFound] at hFirst
        rcases hFirst with hFirst | ⟨hFree, _⟩
        · exact hNew.notMem (Option.some.inj hFirst ▸ (hChains.maximal c hC).1.mem)
        · cases hFree
      · rw [mem_singleton.mp hParent, follows_eq_false_of_le (Nat.le_refl _)] at hFoll
        cases hFoll
    rw [hTip] at hOther
    rw [hOther.eq hNew.keep hBegins, idxOf_append_of_mem hBegun.mem.1,
      idxOf_append_of_notMem hNew.notMem]
    exact Nat.lt_of_lt_of_le (idxOf_lt_length_of_mem hBegun.mem.1) (Nat.le_add_right _ _)

end

variable {earlier later : List AddBulkHeadersChain}

theorem BulkChains.order_extend
  (hChains : BulkChains chain headers (earlier ++ forked :: later)) (hNew : Newest headers header)
  (hTip : new.tip = header) (hFoll : follows forked.tip header = true) :
  (earlier ++ new :: later).Pairwise (Earlier (headers ++ [header])) := by
  have hMem : ∀ c ∈ earlier ++ forked :: later, c.tip ∈ headers :=
    fun c hC => (hChains.maximal c hC).1.mem
  have hForked : forked ∈ earlier ++ forked :: later := by simp
  have hBegins : ∀ opener, BegunBy (headers ++ [header]) opener header →
      BegunBy (headers ++ [header]) opener forked.tip := by
    intro opener hBegun
    rcases BegunBy.exists (hMem _ hForked) with ⟨other, hOther⟩
    have hOther := hNew.begunBy hOther
    have hFirst : (headers ++ [header]).find? (follows forked.tip) = some header := by
      rw [find?_append, find?_eq_none.mpr fun child hChild => by
        simp [(hChains.maximal _ hForked).2 child hChild]]
      simp [hFoll]
    rwa [hBegun.eq hNew.keep (.first hOther hFirst)]
  have hOrder := hChains.order.imp_of_mem fun hFirst hSnd =>
    hNew.earlier (hMem _ hFirst) (hMem _ hSnd)
  rw [pairwise_append, pairwise_cons] at hOrder ⊢
  refine ⟨hOrder.1, ⟨fun c hC opener other hBegun => ?_, hOrder.2.1.2⟩, fun c hC d hD => ?_⟩
  · rw [hTip] at hBegun
    exact hOrder.2.1.1 c hC _ _ (hBegins _ hBegun)
  · rcases mem_cons.mp hD with rfl | hD
    · intro opener other hBegun hOther
      rw [hTip] at hOther
      exact hOrder.2.2 c hC _ mem_cons_self _ _ hBegun (hBegins _ hOther)
    · exact hOrder.2.2 c hC d (mem_cons_of_mem _ hD)

-- Work

theorem validateCompactTarget_eq_ok
  {target : Nat} (hTgt : validateCompactTarget header.bits chain = .ok target) :
  target = convertBitsToTarget header.bits := by
  simp only [validateCompactTarget] at hTgt
  split_ifs at hTgt
  cases hTgt
  rfl

theorem convertBitsToWork_eq_ok_iff : convertBitsToWork header.bits chain = .ok work ↔
    (∃ target, validateCompactTarget header.bits chain = .ok target) ∧
      work = pathWork [header] := by
  constructor
  · intro hWork
    rcases bind_eq_ok_iff.mp hWork with ⟨target, hTgt, hEq⟩
    cases hEq
    exact ⟨⟨target, hTgt⟩, by simp [pathWork, validateCompactTarget_eq_ok hTgt]⟩
  · rintro ⟨⟨target, hTgt⟩, rfl⟩
    rw [convertBitsToWork, hTgt, validateCompactTarget_eq_ok hTgt]
    simp only [pathWork, map_cons, map_nil, sum_singleton]
    rfl

theorem subWork_eq_ok {work1 work2 : Nat} (hBound : work1 < 2 ^ 256) (hLe : work2 ≤ work1) :
  subWork work1 work2 = .ok (work1 - work2) := by
  simp only [subWork, validateWork, workBNtoBuffer, if_pos hBound,
    if_pos (show work2 < 2 ^ 256 by omega), ok_bind, if_neg (Nat.not_lt.mpr hLe),
    if_pos (show work1 - work2 < 2 ^ 256 by omega)]

theorem extendChain_eq_ok_iff :
  extendChain maxHeight header work forked = .ok new ↔ forked.chainWork + work < 2 ^ 256 ∧
      new = ⟨header, forked.tip :: forked.before, forked.chainWork + work,
        if header.height ≤ maxHeight then some (forked.chainWork + work)
        else forked.bulkChainWork⟩ := by
  constructor
  · intro hNew
    rcases bind_eq_ok_iff.mp hNew with ⟨sum, hSum, hEq⟩
    rcases addWork_eq_ok_iff.mp hSum with ⟨hLt, rfl⟩
    cases hEq
    exact ⟨hLt, rfl⟩
  · rintro ⟨hLt, rfl⟩
    rw [extendChain, addWork_eq_ok_iff.mpr ⟨hLt, rfl⟩]
    rfl

theorem BulkChains.forkChain_eq_ok_iff
  (hChains : BulkChains chain headers chains) (hIn : forked ∈ chains)
  (hPre : forked.before = parent :: before) :
  forkChain chain maxHeight header (pathWork [header]) forked = .ok new ↔
    pathWork (header :: parent :: before) < 2 ^ 256 ∧
      new = ⟨header, parent :: before, pathWork (header :: parent :: before),
        if header.height ≤ maxHeight then some (pathWork (header :: parent :: before))
        else none⟩ := by
  have hWork := hChains.work _ hIn
  have hBound := hChains.bound _ hIn (by simp [hPre])
  have hTip := convertBitsToWork_eq_ok_iff.mpr ⟨hChains.bits _ (hChains.maximal _ hIn).1.mem, rfl⟩
  have hSum : forked.chainWork - pathWork [forked.tip] + pathWork [header] =
      pathWork (header :: parent :: before) := by
    rw [hWork, hPre]
    simp only [pathWork, map_cons, map_nil, sum_cons, sum_nil]
    omega
  have hLe : pathWork [forked.tip] ≤ forked.chainWork := by
    rw [hWork]
    simp only [pathWork, map_cons, map_nil, sum_cons, sum_nil]
    omega
  rw [forkChain, hTip, ok_bind, subWork_eq_ok hBound hLe, ok_bind, hPre]
  constructor
  · intro hNew
    rcases bind_eq_ok_iff.mp hNew with ⟨sum, hAdd, hEq⟩
    rcases addWork_eq_ok_iff.mp hAdd with ⟨hLt, rfl⟩
    rw [hSum] at hLt hEq
    cases hEq
    exact ⟨hLt, rfl⟩
  · rintro ⟨hLt, rfl⟩
    rw [addWork_eq_ok_iff.mpr ⟨hSum ▸ hLt, rfl⟩, hSum]
    rfl

theorem findForkedChain_spec (header : BlockHeader) (chains : List AddBulkHeadersChain) :
  match findForkedChain header chains with
    | .ok none => ∀ c ∈ chains, ∃ parent before, c.before = parent :: before ∧
        follows parent header = false
    | .ok (some forked) => ∃ earlier later, chains = earlier ++ forked :: later ∧
        (∃ parent before, forked.before = parent :: before ∧ follows parent header = true) ∧
        ∀ c ∈ earlier, c.before ≠ []
    | .error _ => ∃ earlier single later, chains = earlier ++ single :: later ∧
        single.before = [] ∧ ∀ c ∈ earlier, ∃ parent before, c.before = parent :: before ∧
          follows parent header = false := by
  induction chains with
  | nil => simp [findForkedChain]
  | cons c chains ih =>
    rw [findForkedChain]
    cases hPre : c.before with
    | nil => exact ⟨[], c, chains, rfl, hPre, by simp⟩
    | cons parent before =>
      cases hFoll : follows parent header with
      | true =>
        simp only [hFoll, if_true]
        exact ⟨[], chains, rfl, ⟨parent, before, hPre, hFoll⟩, by simp⟩
      | false =>
        simp only [hFoll, Bool.false_eq_true, if_false]
        have hHead : ∃ parent before, c.before = parent :: before ∧
          follows parent header = false := ⟨parent, before, hPre, hFoll⟩
        rcases hFind : findForkedChain header chains with error | forked | forked
        · rw [hFind] at ih
          rcases ih with ⟨earlier, single, later, rfl, hSingle, hEarlier⟩
          exact ⟨c :: earlier, single, later, rfl, hSingle,
            forall_mem_cons.mpr ⟨hHead, hEarlier⟩⟩
        · rw [hFind] at ih
          exact forall_mem_cons.mpr ⟨hHead, ih⟩
        · rw [hFind] at ih
          rcases ih with ⟨earlier, later, rfl, hForked, hEarlier⟩
          exact ⟨c :: earlier, later, rfl, hForked,
            forall_mem_cons.mpr ⟨by simp [hPre], hEarlier⟩⟩

theorem Alone.begunBy (hAlone : Alone headers header) : BegunBy headers header header := by
  refine .begins hAlone.1 fun parent hParent hFirst => ?_
  have hFoll := find?_some hFirst
  rw [hAlone.2.1 _ hParent] at hFoll
  cases hFoll

theorem BulkChains.alone_iff
  (hChains : BulkChains chain headers chains) (hNew : Newest headers header)
  (hIn : new ∈ chains) : Alone headers new.tip ↔ new.before = [] := by
  have hMax := hChains.maximal _ hIn
  constructor
  · intro hAlone
    exact hMax.1.eq hNew.kept (.root hAlone.1 hAlone.2.1)
  · intro hPre
    refine ⟨hMax.1.mem, ?_, hMax.2⟩
    cases hPre ▸ hMax.1 with
    | root _ hRoot => exact hRoot

-- One Header

theorem pathWork_cons (header : BlockHeader) (path : List BlockHeader) :
  pathWork (header :: path) = pathWork path + pathWork [header] := by
  simp [pathWork, Nat.add_comm]

def AddedIfJoins (chain : Chain) (maxHeight : Int) (headers : List BlockHeader)
  (chains : List AddBulkHeadersChain) (header : BlockHeader) : Prop :=
  (∀ kept, addHeaderToBulkChains chain maxHeight chains header = .ok kept →
    Joins chain headers header ∧ BulkChains chain (headers ++ [header]) kept) ∧
  (Joins chain headers header →
    ∃ kept, addHeaderToBulkChains chain maxHeight chains header = .ok kept)

theorem BulkChains.not_follows_of_earlier
  (hChains : BulkChains chain headers chains) (hKept : Kept headers)
  (hEarlier : Earlier headers forked new) (hIn : forked ∈ chains) (hAlso : new ∈ chains)
  (hFoll : follows forked.tip header = true) : follows new.tip header = false := by
  have hTip := (hChains.maximal _ hIn).1.mem
  rw [Bool.eq_false_iff]
  intro hNewFoll
  rcases BegunBy.exists hTip with ⟨opener, hBegun⟩
  have hEq := hKept.parent_eq hTip (hChains.maximal _ hAlso).1.mem hFoll hNewFoll
  exact Nat.lt_irrefl _ (hEarlier _ _ hBegun (hEq ▸ hBegun))

theorem BulkChains.extend_step
  {later : List AddBulkHeadersChain} (hChains : BulkChains chain headers chains)
  (hNew : Newest headers header) (hAny : chains.any (·.tip.hash = header.hash) = false)
  (hDrop : chains.dropWhile (!follows ·.tip header) = forked :: later) :
  AddedIfJoins chain maxHeight headers chains header := by
  have hSplit := takeWhile_append_dropWhile (p := (!follows ·.tip header)) (l := chains)
  have hPre : ∀ c ∈ chains.takeWhile (!follows ·.tip header), follows c.tip header = false := by
    intro c hC
    simpa using List.all_eq_true.mp all_takeWhile c hC
  have hFoll : follows forked.tip header = true := by
    have hHead := head?_dropWhile_not (!follows ·.tip header) chains
    rw [hDrop] at hHead
    simpa using hHead
  rw [AddedIfJoins, addHeaderToBulkChains, hAny, hDrop]
  rw [hDrop] at hSplit
  generalize chains.takeWhile (!follows ·.tip header) = earlier at hSplit hPre ⊢
  subst hSplit
  have hIn : forked ∈ earlier ++ forked :: later := by simp
  have hTip := (hChains.maximal _ hIn).1.mem
  have hAfter : ∀ c ∈ later, follows c.tip header = false := fun c hC =>
    hChains.not_follows_of_earlier hNew.kept
      ((pairwise_cons.mp (pairwise_append.mp hChains.order).2.1).1 c hC)
      hIn (by simp [hC]) hFoll
  have hSum : forked.chainWork + pathWork [header] =
      pathWork (header :: forked.tip :: forked.before) := by
    rw [hChains.work _ hIn, ← pathWork_cons]
  constructor
  · intro kept hKept
    rcases bind_eq_ok_iff.mp hKept with ⟨work, hWork, hKept⟩
    rcases bind_eq_ok_iff.mp hKept with ⟨new, hExtend, hEq⟩
    rcases convertBitsToWork_eq_ok_iff.mp hWork with ⟨hBits, rfl⟩
    rcases extendChain_eq_ok_iff.mp hExtend with ⟨hLt, hNewEq⟩
    rw [hSum] at hLt hNewEq
    cases hEq
    refine ⟨⟨hBits, fun parent before hPath hParent => ?_,
      .inl ⟨_, hTip, hFoll, (hChains.maximal _ hIn).2⟩⟩, ?_⟩
    · cases hNew.kept.parent_eq hPath.mem hTip hParent hFoll
      rwa [hPath.eq hNew.kept (hChains.maximal _ hIn).1]
    · have hNewTip : new.tip = header := by rw [hNewEq]
      refine hChains.keep hNew (fun c => ?_) hNewTip ?_ hBits (by rw [hNewEq])
        (fun _ => by rwa [hNewEq]) (hChains.order_extend hNew hNewTip hFoll)
      · rw [mem_append, mem_cons, mem_append, mem_cons]
        grind
      · rw [hNewEq]
        exact .next (hNew.rootPath (hChains.maximal _ hIn).1) (by simp) hFoll
  · intro hJoins
    have hLt := hJoins.work _ _ (hChains.maximal _ hIn).1 hFoll
    rw [← hSum] at hLt
    rw [convertBitsToWork_eq_ok_iff.mpr ⟨hJoins.bits, rfl⟩]
    exact ⟨_, by
      simp only [Bool.false_eq_true, if_false, ok_bind, extendChain_eq_ok_iff.mpr ⟨hLt, rfl⟩]
      rfl⟩

theorem BulkChains.joinsChain_of_forked
  (hChains : BulkChains chain headers (earlier ++ forked :: later)) (hNew : Newest headers header)
  (hPre : forked.before = parent :: before) (hFoll : follows parent header = true)
  (hEarlier : ∀ c ∈ earlier, c.before ≠ []) : JoinsChain headers header := by
  refine .inr fun alone hAlone => ?_
  have hIn : forked ∈ earlier ++ forked :: later := by simp
  have hPath := (hChains.maximal _ hIn).1
  rw [hPre] at hPath
  cases hPath with
  | next hParent hTip hLink =>
  rcases BegunBy.exists hParent.mem with ⟨opener, hBegun⟩
  rcases hChains.complete alone [] ⟨.root hAlone.1 hAlone.2.1, hAlone.2.2⟩ with ⟨c, hC, rfl⟩
  have hSingle := (hChains.alone_iff hNew hC).mp hAlone
  have hLater : c ∈ later := by
    rcases mem_append.mp hC with hC | hC
    · exact absurd hSingle (hEarlier c hC)
    · rcases mem_cons.mp hC with rfl | hC
      · rw [hPre] at hSingle
        cases hSingle
      · exact hC
  have hOrder := (pairwise_cons.mp (pairwise_append.mp hChains.order).2.1).1 c hLater
  refine ⟨parent, opener, hFoll, hBegun, ?_⟩
  rcases BegunBy.exists hTip with ⟨other, hOther⟩
  refine Nat.lt_of_le_of_lt ?_ (hOrder _ _ hOther hAlone.begunBy)
  -- The chain forked from begins with its last header, or where its parent began.
  cases hOther with
  | begins _ _ =>
    exact (hBegun.idxOf_le hNew.kept).trans (hNew.kept.idxOf_lt hParent.mem hTip
      (Nat.lt_of_succ_le (follows_iff.mp hLink).1.le)).le
  | first hOther hFirst =>
    cases hNew.kept.parent_eq hOther.mem.2 hParent.mem (find?_some hFirst) hLink
    rw [hOther.eq hNew.kept hBegun]

theorem BulkChains.not_joinsChain_of_single {single : AddBulkHeadersChain}
  (hChains : BulkChains chain headers (earlier ++ single :: later)) (hNew : Newest headers header)
  (hNone : ∀ c ∈ earlier ++ single :: later, follows c.tip header = false)
  (hSingle : single.before = [])
  (hEarlier : ∀ c ∈ earlier, ∃ parent before, c.before = parent :: before ∧
    follows parent header = false) :
  ¬ JoinsChain headers header := by
  have hIn : single ∈ earlier ++ single :: later := by simp
  rintro (⟨parent, hParent, hFoll, hLast⟩ | hAll)
  · rcases hChains.chain_of_parent hNew hNone hParent hFoll with ⟨c, _, hFirst, _⟩
    have hLinked := find?_some hFirst
    rw [hLast _ (mem_of_find?_eq_some hFirst)] at hLinked
    cases hLinked
  · rcases hAll _ ((hChains.alone_iff hNew hIn).mpr hSingle) with
      ⟨parent, opener, hFoll, hBegun, hLt⟩
    rcases hChains.chain_of_parent hNew hNone hBegun.mem.2 hFoll with
      ⟨c, hC, hFirst, before, hPre⟩
    rcases mem_append.mp hC with hC | hC
    · rcases hEarlier c hC with ⟨other, rest, hOther, hNot⟩
      rw [hPre] at hOther
      cases hOther
      rw [hFoll] at hNot
      cases hNot
    · rcases mem_cons.mp hC with rfl | hC
      · rw [hSingle] at hPre
        cases hPre
      · have hOrder := (pairwise_cons.mp (pairwise_append.mp hChains.order).2.1).1 c hC
        have hAlone := (hChains.alone_iff hNew hIn).mpr hSingle
        exact Nat.lt_asymm hLt (hOrder _ _ hAlone.begunBy (.first hBegun hFirst))

theorem BulkChains.fork_step
  (hChains : BulkChains chain headers chains) (hNew : Newest headers header)
  (hAny : chains.any (·.tip.hash = header.hash) = false)
  (hDrop : chains.dropWhile (!follows ·.tip header) = []) :
  AddedIfJoins chain maxHeight headers chains header := by
  have hNone : ∀ c ∈ chains, follows c.tip header = false := by
    intro c hC
    simpa using dropWhile_eq_nil_iff.mp hDrop c hC
  have hAppend : ∀ new : AddBulkHeadersChain, ∀ c, c ∈ chains ++ [new] ↔
      (c ∈ chains ∧ follows c.tip header = false) ∨ c = new := by
    intro new c
    rw [mem_append, mem_singleton]
    exact or_congr_left ⟨fun hC => ⟨hC, hNone c hC⟩, And.left⟩
  have hSpec := findForkedChain_spec header chains
  rw [AddedIfJoins, addHeaderToBulkChains, hAny, hDrop]
  simp only [Bool.false_eq_true, if_false]
  rcases hFind : findForkedChain header chains with error | forked | forked
  · rw [hFind] at hSpec
    rcases hSpec with ⟨earlier, single, later, rfl, hSingle, hEarlier⟩
    refine ⟨fun kept hKept => ?_, fun hJoins => ?_⟩
    · rcases bind_eq_ok_iff.mp hKept with ⟨work, _, hKept⟩
      cases hKept
    · exact absurd hJoins.place (hChains.not_joinsChain_of_single hNew hNone hSingle hEarlier)
  · rw [hFind] at hSpec
    have hRoot : ∀ parent ∈ headers, follows parent header = false := by
      intro parent hParent
      rw [Bool.eq_false_iff]
      intro hFoll
      rcases hChains.chain_of_parent hNew hNone hParent hFoll with ⟨c, hC, _, before, hPre⟩
      rcases hSpec c hC with ⟨other, rest, hOther, hNot⟩
      rw [hPre] at hOther
      cases hOther
      rw [hFoll] at hNot
      cases hNot
    refine ⟨fun kept hKept => ?_, fun hJoins => ?_⟩
    · rcases bind_eq_ok_iff.mp hKept with ⟨work, hWork, hKept⟩
      rcases convertBitsToWork_eq_ok_iff.mp hWork with ⟨hBits, rfl⟩
      cases hKept
      refine ⟨⟨hBits, fun parent _ hPath hFoll => ?_, .inr fun alone hAlone => ?_⟩,
        hChains.keep hNew (hAppend _) rfl (.root (by simp) fun parent hParent => ?_) hBits rfl
          (fun hPre => absurd rfl hPre) (hChains.order_append hNew rfl hNone)⟩
      · rw [hRoot _ hPath.mem] at hFoll
        cases hFoll
      · rcases hChains.complete alone [] ⟨.root hAlone.1 hAlone.2.1, hAlone.2.2⟩ with ⟨c, hC, rfl⟩
        rcases hSpec c hC with ⟨parent, before, hPre, _⟩
        rw [(hChains.alone_iff hNew hC).mp hAlone] at hPre
        cases hPre
      · rcases mem_append.mp hParent with hParent | hParent
        · exact hRoot _ hParent
        · rw [mem_singleton.mp hParent]
          exact hNew.follows_eq_false (by simp)
    · rw [convertBitsToWork_eq_ok_iff.mpr ⟨hJoins.bits, rfl⟩]
      exact ⟨_, rfl⟩
  · rw [hFind] at hSpec
    rcases hSpec with ⟨earlier, later, rfl, ⟨parent, before, hPre, hFoll⟩, hEarlier⟩
    have hIn : forked ∈ earlier ++ forked :: later := by simp
    have hPath := (hChains.maximal _ hIn).1
    rw [hPre] at hPath
    have hParent : RootPath headers parent before := by
      cases hPath
      assumption
    refine ⟨fun kept hKept => ?_, fun hJoins => ?_⟩
    · rcases bind_eq_ok_iff.mp hKept with ⟨work, hWork, hKept⟩
      rcases bind_eq_ok_iff.mp hKept with ⟨_, hFound, hKept⟩
      cases hFound
      rcases bind_eq_ok_iff.mp hKept with ⟨fork, hFork, hEq⟩
      rcases convertBitsToWork_eq_ok_iff.mp hWork with ⟨hBits, rfl⟩
      rcases (hChains.forkChain_eq_ok_iff hIn hPre).mp hFork with ⟨hLt, rfl⟩
      cases hEq
      refine ⟨⟨hBits, fun other rest hOther hAlso => ?_,
        hChains.joinsChain_of_forked hNew hPre hFoll hEarlier⟩,
        hChains.keep hNew (hAppend _) rfl (.next (hNew.rootPath hParent) (by simp) hFoll)
          hBits rfl (fun _ => hLt) (hChains.order_append hNew rfl hNone)⟩
      cases hNew.kept.parent_eq hParent.mem hOther.mem hFoll hAlso
      rwa [hOther.eq hNew.kept hParent]
    · rw [convertBitsToWork_eq_ok_iff.mpr ⟨hJoins.bits, rfl⟩]
      simp only [ok_bind, (hChains.forkChain_eq_ok_iff hIn hPre).mpr
        ⟨hJoins.work _ _ hParent hFoll, rfl⟩]
      exact ⟨_, rfl⟩

-- All Headers

theorem BulkChains.any_tip_iff (hChains : BulkChains chain headers chains) :
  chains.any (·.tip.hash = header.hash) = headers.any fun earlier =>
    earlier.hash = header.hash ∧ headers.all (!follows earlier ·) := by
  rw [Bool.eq_iff_iff]
  simp only [List.any_eq_true, decide_eq_true_eq, List.all_eq_true, Bool.not_eq_true']
  constructor
  · rintro ⟨c, hC, hHash⟩
    exact ⟨c.tip, (hChains.maximal _ hC).1.mem, hHash, (hChains.maximal _ hC).2⟩
  · rintro ⟨earlier, hIn, hHash, hLast⟩
    rcases RootPath.exists hIn with ⟨before, hPath⟩
    rcases hChains.complete _ _ ⟨hPath, hLast⟩ with ⟨c, hC, rfl⟩
    exact ⟨c, hC, hHash⟩

theorem BulkChains.run
  (rest : List BlockHeader) (hChains : BulkChains chain headers chains) (hKept : Kept headers)
  (hTop : ∀ earlier ∈ headers, ∀ later ∈ rest, earlier.height ≤ later.height)
  (hSorted : rest.Pairwise (·.height ≤ ·.height)) :
  (∀ kept, rest.foldlM (addHeaderToBulkChains chain maxHeight) chains = .ok kept →
    AllJoin chain headers rest ∧ BulkChains chain (rest.foldl keepHeader headers) kept ∧
      Kept (rest.foldl keepHeader headers)) ∧
  (AllJoin chain headers rest →
    ∃ kept, rest.foldlM (addHeaderToBulkChains chain maxHeight) chains = .ok kept) := by
  induction rest generalizing headers chains with
  | nil =>
    refine ⟨fun kept hRun => ?_, fun _ => ⟨chains, rfl⟩⟩
    cases hRun
    exact ⟨trivial, hChains, hKept⟩
  | cons header rest ih =>
    rw [pairwise_cons] at hSorted
    have hAny := @BulkChains.any_tip_iff _ header _ _ hChains
    rw [foldlM_cons, foldl_cons, AllJoin]
    cases hTip : chains.any (·.tip.hash = header.hash) with
    | true =>
      have hKeep : keepHeader headers header = headers := if_pos (hAny.symm.trans hTip)
      have hAdd : addHeaderToBulkChains chain maxHeight chains header = .ok chains := if_pos hTip
      rw [hKeep, hAdd, ok_bind]
      rcases ih hChains hKept (fun earlier hIn later hLater =>
        hTop _ hIn _ (mem_cons_of_mem _ hLater)) hSorted.2 with ⟨hOk, hJoin⟩
      exact ⟨fun kept hRun => ⟨⟨.inl rfl, (hOk kept hRun).1⟩, (hOk kept hRun).2⟩,
        fun hAll => hJoin hAll.2⟩
    | false =>
      have hFalse := hAny.symm.trans hTip
      have hKeep : keepHeader headers header = headers ++ [header] :=
        if_neg (by rw [hFalse]; exact Bool.false_ne_true)
      have hNew : Newest headers header := by
        refine ⟨hKept, fun earlier hIn => hTop _ hIn _ mem_cons_self, fun earlier hIn hHash => ?_⟩
        by_contra hLast
        refine absurd hFalse (Bool.not_eq_false _ ▸ List.any_eq_true.mpr ⟨earlier, hIn, ?_⟩)
        simp only [decide_eq_true_eq, List.all_eq_true, Bool.not_eq_true']
        exact ⟨hHash, fun child hChild =>
          Bool.eq_false_iff.mpr fun hFoll => hLast ⟨child, hChild, hFoll⟩⟩
      have hStep : AddedIfJoins chain maxHeight headers chains header := by
        cases hDrop : chains.dropWhile (!follows ·.tip header) with
        | nil => exact hChains.fork_step hNew hTip hDrop
        | cons forked later => exact hChains.extend_step hNew hTip hDrop
      have hRest : ∀ earlier ∈ headers ++ [header], ∀ later ∈ rest,
          earlier.height ≤ later.height := by
        intro earlier hIn later hLater
        rcases mem_append.mp hIn with hIn | hIn
        · exact hTop _ hIn _ (mem_cons_of_mem _ hLater)
        · rw [mem_singleton.mp hIn]
          exact hSorted.1 _ hLater
      rw [hKeep]
      constructor
      · intro kept hRun
        rcases bind_eq_ok_iff.mp hRun with ⟨next, hAdd, hRun⟩
        rcases hStep.1 next hAdd with ⟨hJoins, hNext⟩
        rcases (ih hNext hNew.keep hRest hSorted.2).1 kept hRun with ⟨hAll, hEnd⟩
        exact ⟨⟨.inr hJoins, hAll⟩, hEnd⟩
      · rintro ⟨hEq | hJoins, hAll⟩
        · exact absurd hEq (by simp)
        · rcases hStep.2 hJoins with ⟨next, hAdd⟩
          rw [hAdd]
          exact (ih (hStep.1 next hAdd).2 hNew.keep hRest hSorted.2).2 hAll

theorem RootPath.congr
  {others : List BlockHeader} (hSame : ∀ header, header ∈ headers ↔ header ∈ others)
  (hPath : RootPath headers tip before) : RootPath others tip before := by
  induction hPath with
  | root hIn hRoot =>
    exact .root ((hSame _).mp hIn) fun parent hParent => hRoot _ ((hSame _).mpr hParent)
  | next _ hIn hFoll ih => exact .next ih ((hSame _).mp hIn) hFoll

end TsStack.Chaintracks
