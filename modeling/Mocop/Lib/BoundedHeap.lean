import Mathlib.Data.List.Perm.Basic
import Mathlib.Data.List.Induction

/-!
# `Mocop.Lib.BoundedHeap`: the best items of a stream, in a heap of bounded size

A max-heap keeps the worst item at index zero. While it is not full, an item is pushed and sifted
up. A full heap takes an item only if it is better than the worst one, which it replaces and which
is sifted down (`retain`).

`Keeps` is what holds after every item: the array is a heap of bounded size, and no item that was
dropped is better than one that is kept. So the sorted heap and the first items of the sorted stream
have the same items, up to the order of items that the comparison does not tell apart
(`Keeps.sorted`).
-/

set_option autoImplicit false

namespace Mocop

universe u

variable {α : Type u}

namespace BoundedHeap

/-! ### The heap -/

section
variable (cmp : α → α → Ordering)

/-- Moves an item up while it is worse than its parent. -/
def siftUp (heap : Array α) (index : ℕ) (hindex : index < heap.size) : Array α :=
  if hpos : 0 < index then
    have hparent : (index - 1) / 2 < heap.size := by omega
    if (cmp heap[(index - 1) / 2] heap[index]).isGE then heap
    else siftUp (heap.swap ((index - 1) / 2) index) ((index - 1) / 2) (by simpa using hparent)
  else heap
termination_by index
decreasing_by omega

/-- The worse of two children, the left one when they are equally bad. -/
def worseChild (heap : Array α) (left : ℕ) (hleft : left < heap.size) : ℕ :=
  if hright : left + 1 < heap.size then
    if cmp heap[left + 1] heap[left] = .gt then left + 1 else left
  else left

theorem worseChild_cases (heap : Array α) (left : ℕ) (hleft : left < heap.size) :
    worseChild cmp heap left hleft = left
      ∨ worseChild cmp heap left hleft = left + 1 ∧ left + 1 < heap.size := by
  unfold worseChild
  split
  · next hright =>
    split
    · exact .inr ⟨rfl, hright⟩
    · exact .inl rfl
  · exact .inl rfl

theorem worseChild_lt (heap : Array α) (left : ℕ) (hleft : left < heap.size) :
    worseChild cmp heap left hleft < heap.size := by
  rcases worseChild_cases cmp heap left hleft with h | ⟨h, hright⟩
  · rwa [h]
  · rwa [h]

/-- Moves an item down while its worse child is worse than it. -/
def siftDown (heap : Array α) (index : ℕ) : Array α :=
  if hleft : index * 2 + 1 < heap.size then
    have hindex : index < heap.size := by omega
    have hworse := worseChild_lt cmp heap (index * 2 + 1) hleft
    if (cmp heap[index] heap[worseChild cmp heap (index * 2 + 1) hleft]).isGE then heap
    else
      siftDown (heap.swap index (worseChild cmp heap (index * 2 + 1) hleft))
        (worseChild cmp heap (index * 2 + 1) hleft)
  else heap
termination_by heap.size - index
decreasing_by
  have hcases := worseChild_cases cmp heap (index * 2 + 1) hleft
  rw [Array.size_swap]
  omega

/-- Takes one more item. -/
def retain (maxSize : ℕ) (heap : Array α) (item : α) : Array α :=
  if heap.size < maxSize then siftUp cmp (heap.push item) heap.size (by simp)
  else if hroot : 0 < heap.size then
    if (cmp item heap[0]).isGE then heap else siftDown cmp (heap.set 0 item) 0
  else heap

end

/-! ### The heap property -/

/-- The children of an index. -/
def Child (p j : ℕ) : Prop := j = p * 2 + 1 ∨ j = p * 2 + 2

/-- No child is worse than its parent. -/
def IsHeap (cmp : α → α → Ordering) (heap : Array α) : Prop :=
  ∀ p j (hp : p < heap.size) (hj : j < heap.size), Child p j → (cmp heap[p] heap[j]).isGE

/-- A heap but for the edge into `i`, whose parent is as bad as the children of `i`. -/
structure UpInv (cmp : α → α → Ordering) (heap : Array α) (i : ℕ) : Prop where
  edge : ∀ p j (hp : p < heap.size) (hj : j < heap.size), Child p j → j ≠ i →
    (cmp heap[p] heap[j]).isGE
  above : ∀ p j (hp : p < heap.size) (hj : j < heap.size), Child p i → Child i j →
    (cmp heap[p] heap[j]).isGE

/-- A heap but for the edges out of `i`, whose parent is as bad as the children of `i`. -/
structure DownInv (cmp : α → α → Ordering) (heap : Array α) (i : ℕ) : Prop where
  edge : ∀ p j (hp : p < heap.size) (hj : j < heap.size), Child p j → p ≠ i →
    (cmp heap[p] heap[j]).isGE
  above : ∀ p j (hp : p < heap.size) (hj : j < heap.size), Child p i → Child i j →
    (cmp heap[p] heap[j]).isGE

section
variable {cmp : α → α → Ordering} [Std.TransCmp cmp]

theorem isGE_self (a : α) : (cmp a a).isGE = true := by
  have hself : cmp a a = .eq := Std.ReflCmp.compare_self
  rw [hself]
  rfl

/-- What is not as bad is better. -/
theorem isGE_of_not_isGE {a b : α} (h : ¬ (cmp a b).isGE = true) : (cmp b a).isGE = true := by
  rw [Std.OrientedCmp.isGE_eq_isLE]
  cases hcmp : cmp a b with
  | lt => rfl
  | eq => simp [hcmp] at h
  | gt => simp [hcmp] at h

/-- One step up. -/
theorem UpInv.swap {heap : Array α} {p i : ℕ} (h : UpInv cmp heap i) (hp : p < heap.size)
    (hi : i < heap.size) (hchild : Child p i) (hworse : ¬ (cmp heap[p] heap[i]).isGE = true) :
    UpInv cmp (heap.swap p i) p := by
  have hup := isGE_of_not_isGE hworse
  unfold Child at hchild
  constructor
  · intro q j hq hj hqj hne
    have hq' : q < heap.size := by simpa using hq
    have hj' : j < heap.size := by simpa using hj
    have hcase := hqj
    unfold Child at hcase
    rw [Array.getElem_swap, Array.getElem_swap, if_neg hne]
    by_cases hji : j = i
    · -- The edge between the two: they changed places.
      have hqp : q = p := by omega
      simpa [hji, hqp] using hup
    · rw [if_neg hji]
      by_cases hqi : q = i
      · have hip : i ≠ p := by omega
        simpa [hip, hqi] using h.above p j hp hj' hchild (hqi ▸ hqj)
      · by_cases hqp : q = p
        · -- The other child of `p` is not worse than `p` was.
          subst hqp
          simpa using Std.TransCmp.isGE_trans hup (h.edge q j hq' hj' hqj hji)
        · simpa [hqp, hqi] using h.edge q j hq' hj' hqj hji
  · intro q j hq hj hqp hpj
    have hq' : q < heap.size := by simpa using hq
    have hj' : j < heap.size := by simpa using hj
    have habove := hqp
    have hbelow := hpj
    unfold Child at habove hbelow
    have hge := h.edge q p hq' hp hqp (by omega)
    rw [Array.getElem_swap, Array.getElem_swap, if_neg (by omega), if_neg (by omega),
      if_neg (by omega)]
    by_cases hji : j = i
    · simpa [hji] using hge
    · simpa [hji] using Std.TransCmp.isGE_trans hge (h.edge p j hp hj' hpj hji)

theorem isHeap_siftUp (index : ℕ) (heap : Array α) (hindex : index < heap.size)
    (h : UpInv cmp heap index) : IsHeap cmp (siftUp cmp heap index hindex) := by
  induction index using Nat.strongRecOn generalizing heap with
  | ind index ih =>
    rw [siftUp]
    split
    · next hpos =>
      have hparent : (index - 1) / 2 < heap.size := by omega
      have hchild : Child ((index - 1) / 2) index := by
        unfold Child
        omega
      dsimp only
      split
      · next hge =>
        intro p j hp hj hpj
        by_cases hji : j = index
        · have hpp : p = (index - 1) / 2 := by
            unfold Child at hpj
            omega
          subst hji hpp
          exact hge
        · exact h.edge p j hp hj hpj hji
      · next hge => exact ih _ (by omega) _ _ (h.swap hparent hindex hchild hge)
    · next hpos =>
      -- The root has no edge into it.
      intro p j hp hj hpj
      refine h.edge p j hp hj hpj ?_
      unfold Child at hpj
      omega

omit [Std.TransCmp cmp] in
theorem siftUp_perm (index : ℕ) (heap : Array α) (hindex : index < heap.size) :
    (siftUp cmp heap index hindex).Perm heap := by
  induction index using Nat.strongRecOn generalizing heap with
  | ind index ih =>
    rw [siftUp]
    split
    · dsimp only
      split
      · exact .refl _
      · exact (ih _ (by omega) _ _).trans (Array.swap_perm _ _)
    · exact .refl _

/-- No child is worse than the worse child. -/
theorem isGE_worseChild {heap : Array α} {i j : ℕ} (hleft : i * 2 + 1 < heap.size)
    (hworse : worseChild cmp heap (i * 2 + 1) hleft < heap.size) (hj : j < heap.size)
    (hij : Child i j) :
    (cmp heap[worseChild cmp heap (i * 2 + 1) hleft] heap[j]).isGE := by
  unfold Child at hij
  by_cases hright : i * 2 + 1 + 1 < heap.size
  · by_cases hgt : cmp heap[i * 2 + 1 + 1] heap[i * 2 + 1] = .gt
    · have heq : worseChild cmp heap (i * 2 + 1) hleft = i * 2 + 1 + 1 := by
        rw [worseChild, dif_pos hright, if_pos hgt]
      simp only [heq]
      rcases hij with rfl | rfl
      · rw [hgt]
        rfl
      · exact isGE_self _
    · have heq : worseChild cmp heap (i * 2 + 1) hleft = i * 2 + 1 := by
        rw [worseChild, dif_pos hright, if_neg hgt]
      simp only [heq]
      rcases hij with rfl | rfl
      · exact isGE_self _
      · rw [Std.OrientedCmp.isGE_eq_isLE]
        show (cmp heap[i * 2 + 1 + 1] heap[i * 2 + 1]).isLE = true
        cases hcmp : cmp heap[i * 2 + 1 + 1] heap[i * 2 + 1] with
        | lt => rfl
        | eq => rfl
        | gt => exact absurd hcmp hgt
  · have heq : worseChild cmp heap (i * 2 + 1) hleft = i * 2 + 1 := by
      rw [worseChild, dif_neg hright]
    simp only [heq]
    obtain rfl : j = i * 2 + 1 := by omega
    exact isGE_self _

/-- One step down. -/
theorem DownInv.swap {heap : Array α} {i w : ℕ} (h : DownInv cmp heap i) (hi : i < heap.size)
    (hw : w < heap.size) (hchild : Child i w)
    (hworst : ∀ j (hj : j < heap.size), Child i j → (cmp heap[w] heap[j]).isGE)
    (hworse : ¬ (cmp heap[i] heap[w]).isGE = true) : DownInv cmp (heap.swap i w) w := by
  have hdown := isGE_of_not_isGE hworse
  have hiw := hchild
  unfold Child at hiw
  constructor
  · intro q j hq hj hqj hne
    have hq' : q < heap.size := by simpa using hq
    have hj' : j < heap.size := by simpa using hj
    have hcase := hqj
    unfold Child at hcase
    rw [Array.getElem_swap, Array.getElem_swap, if_neg hne]
    by_cases hqi : q = i
    · subst hqi
      by_cases hjw : j = w
      · have hwq : w ≠ q := by omega
        simpa [hjw, hwq] using hdown
      · have hjq : j ≠ q := by omega
        simpa [hjw, hjq] using hworst j hj' hqj
    · by_cases hji : j = i
      · -- The parent of `i` is as bad as the child that moves up.
        subst hji
        simpa [hqi] using h.above q w hq' hw hqj hchild
      · have hjw : j ≠ w := by omega
        simpa [hqi, hji, hjw] using h.edge q j hq' hj' hqj hqi
  · intro q j hq hj hqw hwj
    have hj' : j < heap.size := by simpa using hj
    have habove := hqw
    have hbelow := hwj
    unfold Child at habove hbelow
    obtain rfl : q = i := by omega
    have hjq : j ≠ q := by omega
    have hjw : j ≠ w := by omega
    have hedge := h.edge w j hw hj' hwj (by omega)
    rw [Array.getElem_swap, Array.getElem_swap]
    simpa [hjq, hjw] using hedge

theorem isHeap_siftDown (heap : Array α) (index : ℕ) (h : DownInv cmp heap index) :
    IsHeap cmp (siftDown cmp heap index) := by
  generalize hmeasure : heap.size - index = measure
  induction measure using Nat.strongRecOn generalizing heap index with
  | ind measure ih =>
    rw [siftDown]
    split
    · next hleft =>
      have hindex : index < heap.size := by omega
      have hworse := worseChild_lt cmp heap (index * 2 + 1) hleft
      have hcases := worseChild_cases cmp heap (index * 2 + 1) hleft
      have hworst := fun j (hj : j < heap.size) hij => isGE_worseChild hleft hworse hj hij
      dsimp only
      split
      · next hge =>
        intro p j hp hj hpj
        by_cases hpi : p = index
        · subst hpi
          exact Std.TransCmp.isGE_trans hge (hworst j hj hpj)
        · exact h.edge p j hp hj hpj hpi
      · next hge =>
        refine ih _ ?_ _ _ (h.swap hindex hworse ?_ hworst hge) rfl
        · rw [Array.size_swap]
          omega
        · unfold Child
          omega
    · next hleft =>
      -- The index has no child.
      intro p j hp hj hpj
      refine h.edge p j hp hj hpj ?_
      unfold Child at hpj
      omega

omit [Std.TransCmp cmp] in
theorem siftDown_perm (heap : Array α) (index : ℕ) : (siftDown cmp heap index).Perm heap := by
  generalize hmeasure : heap.size - index = measure
  induction measure using Nat.strongRecOn generalizing heap index with
  | ind measure ih =>
    rw [siftDown]
    split
    · next hleft =>
      have hcases := worseChild_cases cmp heap (index * 2 + 1) hleft
      dsimp only
      split
      · exact .refl _
      · refine (ih _ ?_ _ _ rfl).trans (Array.swap_perm _ _)
        rw [Array.size_swap]
        omega
    · exact .refl _

/-- The root is a worst item. -/
theorem IsHeap.root {heap : Array α} (h : IsHeap cmp heap) (hroot : 0 < heap.size) (j : ℕ)
    (hj : j < heap.size) : (cmp heap[0] heap[j]).isGE := by
  induction j using Nat.strongRecOn with
  | ind j ih =>
    by_cases hzero : j = 0
    · subst hzero
      exact isGE_self _
    · have hparent : (j - 1) / 2 < heap.size := by omega
      refine Std.TransCmp.isGE_trans (ih ((j - 1) / 2) (by omega) hparent)
        (h _ j hparent hj ?_)
      unfold Child
      omega

theorem IsHeap.root_mem {heap : Array α} (h : IsHeap cmp heap) (hroot : 0 < heap.size) {x : α}
    (hx : x ∈ heap) : (cmp heap[0] x).isGE := by
  obtain ⟨j, hj, rfl⟩ := Array.mem_iff_getElem.mp hx
  exact h.root hroot j hj

/-! ### The best items so far -/

/-- The heap after the items `seen`: it has the bound, and no dropped item is better than a kept
one. -/
structure Keeps (cmp : α → α → Ordering) (maxSize : ℕ) (seen : List α) (heap : Array α) :
    Prop where
  isHeap : IsHeap cmp heap
  bounded : heap.size ≤ maxSize
  best : ∃ dropped, (heap.toList ++ dropped).Perm seen ∧ (dropped ≠ [] → heap.size = maxSize)
    ∧ ∀ d ∈ dropped, ∀ x ∈ heap, (cmp d x).isGE

omit [Std.TransCmp cmp] in
theorem keeps_empty (maxSize : ℕ) : Keeps cmp maxSize [] #[] where
  isHeap := fun _ _ hp => absurd hp (Nat.not_lt_zero _)
  bounded := Nat.zero_le _
  best := ⟨[], .nil, fun h => absurd rfl h, by simp⟩

omit [Std.TransCmp cmp] in
/-- A pushed item is sifted up. -/
theorem upInv_push {heap : Array α} (h : IsHeap cmp heap) (item : α) :
    UpInv cmp (heap.push item) heap.size := by
  constructor
  · intro p j hp hj hpj hne
    have hj' : j < heap.size := by
      rw [Array.size_push] at hj
      omega
    have hp' : p < heap.size := by
      unfold Child at hpj
      omega
    rw [Array.getElem_push_lt hp', Array.getElem_push_lt hj']
    exact h p j hp' hj' hpj
  · intro p j hp hj hpi hij
    rw [Array.size_push] at hj
    unfold Child at hij
    omega

omit [Std.TransCmp cmp] in
/-- An item that replaces the root is sifted down. -/
theorem downInv_set {heap : Array α} (h : IsHeap cmp heap) (hroot : 0 < heap.size) (item : α) :
    DownInv cmp (heap.set 0 item) 0 := by
  constructor
  · intro p j hp hj hpj hne
    have hp' : p < heap.size := by simpa using hp
    have hj' : j < heap.size := by simpa using hj
    have hj0 : (0 : ℕ) ≠ j := by
      unfold Child at hpj
      omega
    rw [Array.getElem_set_ne _ hj' hj0, Array.getElem_set_ne _ hp' (Ne.symm hne)]
    exact h p j hp' hj' hpj
  · intro p j _ _ hp _
    unfold Child at hp
    omega

theorem Keeps.retain {maxSize : ℕ} (hmax : 0 < maxSize) {seen : List α} {heap : Array α}
    (h : Keeps cmp maxSize seen heap) (item : α) :
    Keeps cmp maxSize (seen ++ [item]) (retain cmp maxSize heap item) := by
  obtain ⟨dropped, hperm, hfull, hworse⟩ := h.best
  have hbounded := h.bounded
  unfold BoundedHeap.retain
  by_cases hsmall : heap.size < maxSize
  · rw [if_pos hsmall]
    -- Nothing was dropped so far.
    have hnone : dropped = [] := by
      by_contra hne
      have hsize := hfull hne
      omega
    subst hnone
    rw [List.append_nil] at hperm
    have hsift := @siftUp_perm _ cmp heap.size (heap.push item) (by simp)
    have hlist := hsift.toList
    rw [Array.toList_push] at hlist
    constructor
    · exact isHeap_siftUp _ _ _ (upInv_push h.isHeap item)
    · rw [hsift.size_eq, Array.size_push]
      exact hsmall
    · refine ⟨[], ?_, fun hne => absurd rfl hne, by simp⟩
      rw [List.append_nil]
      exact hlist.trans (hperm.append_right [item])
  · have hsize : heap.size = maxSize := by omega
    have hroot : 0 < heap.size := by omega
    rw [if_neg hsmall, dif_pos hroot]
    by_cases hge : (cmp item heap[0]).isGE
    · rw [if_pos hge]
      refine ⟨h.isHeap, hbounded, dropped ++ [item], ?_, fun _ => hsize, ?_⟩
      · rw [← List.append_assoc]
        exact hperm.append_right [item]
      · intro d hd x hx
        rcases List.mem_append.mp hd with hold | hnew
        · exact hworse d hold x hx
        · rw [List.mem_singleton.mp hnew]
          exact Std.TransCmp.isGE_trans hge (h.isHeap.root_mem hroot hx)
    · rw [if_neg hge]
      have hbetter := isGE_of_not_isGE hge
      have hsift := @siftDown_perm _ cmp (heap.set 0 item) 0
      have hsplit : ∃ rest, heap.toList = heap[0] :: rest
          ∧ (heap.set 0 item).toList = item :: rest := by
        have hlength : 0 < heap.toList.length := by simpa using hroot
        cases hlist : heap.toList with
        | nil =>
          rw [hlist] at hlength
          exact absurd hlength (Nat.lt_irrefl 0)
        | cons first rest =>
          have hfirst : heap[0] = first := by
            rw [← Array.getElem_toList]
            simp [hlist]
          refine ⟨rest, by rw [hfirst], ?_⟩
          rw [Array.toList_set, hlist]
          rfl
      obtain ⟨rest, hheap, hset⟩ := hsplit
      constructor
      · exact isHeap_siftDown _ _ (downInv_set h.isHeap hroot item)
      · rw [hsift.size_eq, Array.size_set]
        exact hbounded
      · -- The root is dropped.
        refine ⟨heap[0] :: dropped, ?_, fun _ => ?_, ?_⟩
        · have hlist := hsift.toList
          rw [hset] at hlist
          rw [hheap] at hperm
          refine (hlist.append_right _).trans ?_
          rw [List.cons_append]
          refine (List.Perm.cons item (List.perm_middle.trans hperm)).trans ?_
          exact (List.perm_append_singleton item seen).symm
        · rw [hsift.size_eq, Array.size_set]
          exact hsize
        · intro d hd x hx
          have hx' : x = item ∨ x ∈ heap := by
            have hin : x ∈ (heap.set 0 item).toList := (hsift.toList.mem_iff).mp hx.val
            rw [hset] at hin
            rcases List.mem_cons.mp hin with rfl | hrest
            · exact .inl rfl
            · refine .inr (Array.mem_def.mpr ?_)
              rw [hheap]
              exact List.mem_cons_of_mem _ hrest
          have hd' : (cmp d heap[0]).isGE := by
            rcases List.mem_cons.mp hd with rfl | hold
            · exact isGE_self _
            · exact hworse d hold _ (Array.getElem_mem hroot)
          rcases hx' with rfl | hin
          · exact Std.TransCmp.isGE_trans hd' hbetter
          · exact Std.TransCmp.isGE_trans hd' (h.isHeap.root_mem hroot hin)

/-- A heap of all items. -/
theorem keeps_foldl {maxSize : ℕ} (hmax : 0 < maxSize) (items : List α) :
    Keeps cmp maxSize items (items.foldl (BoundedHeap.retain cmp maxSize) #[]) := by
  induction items using List.reverseRecOn with
  | nil => exact keeps_empty maxSize
  | append_singleton items item ih =>
    rw [List.foldl_append]
    exact ih.retain hmax item

/-! ### Sorted -/

/-- Sorts by a comparison, stably. -/
def sortWith (cmp : α → α → Ordering) (l : List α) : List α :=
  l.mergeSort fun a b => (cmp a b).isLE

omit [Std.TransCmp cmp] in
theorem sortWith_perm (l : List α) : (sortWith cmp l).Perm l := List.mergeSort_perm ..

theorem pairwise_sortWith (l : List α) :
    (sortWith cmp l).Pairwise fun a b => (cmp a b).isLE = true :=
  List.pairwise_mergeSort
    (fun a b c (hab : (cmp a b).isLE = true) hbc => Std.TransCmp.isLE_trans hab hbc)
    (fun a b => by
      have hswap : (cmp a b).isGE = (cmp b a).isLE := Std.OrientedCmp.isGE_eq_isLE
      rw [Bool.or_eq_true, ← hswap]
      cases cmp a b <;> simp) l

/-- At each place, a sorted list is not above another of the same items. -/
theorem getElem_isLE_of_perm {l l' : List α} (hperm : l.Perm l')
    (hsorted : l.Pairwise fun a b => (cmp a b).isLE = true)
    (hsorted' : l'.Pairwise fun a b => (cmp a b).isLE = true) (i : ℕ) (hi : i < l.length)
    (hi' : i < l'.length) : (cmp l[i] l'[i]).isLE = true := by
  by_contra hnot
  -- Count the items up to `l'[i]`: there are more in `l'` than in `l`.
  have hcount := hperm.countP_eq fun a => (cmp a l'[i]).isLE
  have hmany : i + 1 ≤ l'.countP fun a => (cmp a l'[i]).isLE := by
    have htake : (l'.take (i + 1)).countP (fun a => (cmp a l'[i]).isLE) = i + 1 := by
      rw [List.countP_eq_length.mpr, List.length_take, Nat.min_eq_left hi']
      intro a ha
      obtain ⟨j, hj, rfl⟩ := List.mem_iff_getElem.mp ha
      rw [List.getElem_take]
      rw [List.length_take] at hj
      by_cases hji : j = i
      · simp only [hji]
        exact Std.ReflCmp.isLE_rfl
      · exact List.pairwise_iff_getElem.mp hsorted' j i _ hi' (by omega)
    have hsub : (l'.take (i + 1)).countP (fun a => (cmp a l'[i]).isLE)
        ≤ l'.countP fun a => (cmp a l'[i]).isLE := (List.take_sublist _ _).countP_le
    omega
  have hfew : l.countP (fun a => (cmp a l'[i]).isLE) ≤ i := by
    have hdrop : (l.drop i).countP (fun a => (cmp a l'[i]).isLE) = 0 := by
      rw [List.countP_eq_zero]
      intro a ha hle
      obtain ⟨j, hj, rfl⟩ := List.mem_iff_getElem.mp ha
      rw [List.getElem_drop] at hle
      rw [List.length_drop] at hj
      refine hnot (Std.TransCmp.isLE_trans ?_ hle)
      by_cases hj0 : j = 0
      · subst hj0
        exact Std.ReflCmp.isLE_rfl
      · exact List.pairwise_iff_getElem.mp hsorted i (i + j) hi (by omega) (by omega)
    have hsplit : l.countP (fun a => (cmp a l'[i]).isLE)
        = (l.take i).countP (fun a => (cmp a l'[i]).isLE)
          + (l.drop i).countP (fun a => (cmp a l'[i]).isLE) := by
      rw [← List.countP_append, List.take_append_drop]
    have hlength := List.countP_le_length (p := fun a => (cmp a l'[i]).isLE) (l := l.take i)
    rw [List.length_take] at hlength
    omega
  omega

/-- Two sorted lists of the same items have equal items at each place, as far as the comparison
tells them apart. -/
theorem forall₂_eq_of_perm {l l' : List α} (hperm : l.Perm l')
    (hsorted : l.Pairwise fun a b => (cmp a b).isLE = true)
    (hsorted' : l'.Pairwise fun a b => (cmp a b).isLE = true) :
    List.Forall₂ (fun a b => cmp a b = .eq) l l' := by
  rw [List.forall₂_iff_get]
  refine ⟨hperm.length_eq, fun i hi hi' => ?_⟩
  exact Std.OrientedCmp.isLE_antisymm (getElem_isLE_of_perm hperm hsorted hsorted' i hi hi')
    (getElem_isLE_of_perm hperm.symm hsorted' hsorted i hi' hi)

/-- The sorted heap has the first items of the sorted stream. -/
theorem Keeps.sorted {maxSize : ℕ} {seen : List α} {heap : Array α}
    (h : Keeps cmp maxSize seen heap) :
    List.Forall₂ (fun a b => cmp a b = .eq) (sortWith cmp heap.toList)
      ((sortWith cmp seen).take maxSize) := by
  obtain ⟨dropped, hperm, hfull, hworse⟩ := h.best
  have hparts : (sortWith cmp heap.toList ++ sortWith cmp dropped).Perm (sortWith cmp seen) :=
    ((sortWith_perm _).append (sortWith_perm _)).trans (hperm.trans (sortWith_perm _).symm)
  have hsorted : (sortWith cmp heap.toList ++ sortWith cmp dropped).Pairwise
      fun a b => (cmp a b).isLE = true := by
    refine List.pairwise_append.mpr ⟨pairwise_sortWith _, pairwise_sortWith _, ?_⟩
    intro x hx d hd
    have hin : x ∈ heap := Array.mem_def.mpr ((sortWith_perm _).mem_iff.mp hx)
    have hge := hworse d ((sortWith_perm _).mem_iff.mp hd) x hin
    rwa [Std.OrientedCmp.isGE_eq_isLE] at hge
  have hall := forall₂_eq_of_perm hparts hsorted (pairwise_sortWith seen)
  have hlength : (sortWith cmp heap.toList).length = heap.size := by
    rw [(sortWith_perm _).length_eq, Array.length_toList]
  have htake : (sortWith cmp heap.toList ++ sortWith cmp dropped).take maxSize
      = sortWith cmp heap.toList := by
    by_cases hnone : dropped = []
    · subst hnone
      have hempty : sortWith cmp ([] : List α) = [] := by simp [sortWith]
      rw [hempty, List.append_nil, List.take_of_length_le]
      rw [hlength]
      exact h.bounded
    · rw [← hfull hnone, ← hlength, List.take_left]
  rw [← htake]
  exact List.forall₂_take _ hall

end
end BoundedHeap
end Mocop
