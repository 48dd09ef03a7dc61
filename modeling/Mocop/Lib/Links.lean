import Mathlib.Data.List.Dedup
import Mathlib.Data.List.Perm.Subperm
import Mathlib.Order.Basic

/-!
# `Mocop.Lib.Links`: reachability along a list of links

Links run from a source to a target. `reachFrom` is the worklist that collects what a node
reaches, and `retainLinks` the repeated scan that keeps the links whose source is reached.

Main results:

- `reaches_of_mem_reachFrom`: the worklist collects reachable nodes only;
- `mem_reachFrom_of_reaches`: it collects all of them, given enough fuel;
- `mem_retainLinks_iff`: the scan keeps exactly the links whose source is reachable, in
  whatever order the links are listed;
- `retainLinks_subperm`: it keeps no link twice.
-/

set_option autoImplicit false

namespace Mocop

universe u v

variable {N : Type u} {L : Type v} [DecidableEq N] (source target : L → N)

/-- Some link runs from one node to the other. -/
def Linked (links : List L) (a b : N) : Prop := ∃ link ∈ links, source link = a ∧ target link = b

/-- One node reaches another along the links. -/
abbrev Reaches (links : List L) : N → N → Prop :=
  Relation.ReflTransGen (Linked source target links)

omit [DecidableEq N] in
/-- More links reach more. -/
theorem Reaches.mono {links more : List L} (hsub : links ⊆ more) {a b : N}
    (h : Reaches source target links a b) : Reaches source target more a b := by
  induction h with
  | refl => exact .refl
  | tail _ hlink ih =>
    obtain ⟨link, hmem, hends⟩ := hlink
    exact ih.tail ⟨link, hsub hmem, hends⟩

omit [DecidableEq N] in
variable {source target} in
/-- Reachability reads nothing but the ends of the links. -/
theorem reaches_congr {links more : List L}
    (h : links.map (fun link => (source link, target link))
      = more.map (fun link => (source link, target link))) :
    Reaches source target links = Reaches source target more := by
  have hlinked : ∀ (l : List L) (a b : N), Linked source target l a b
      ↔ (a, b) ∈ l.map fun link => (source link, target link) := by
    intro l a b
    simp only [Linked, List.mem_map, Prod.mk.injEq]
  have heq : Linked source target links = Linked source target more := by
    funext a b
    rw [eq_iff_iff, hlinked, hlinked, h]
  rw [Reaches, Reaches, heq]

/-! ### The worklist -/

/-- The targets of the links from a node. -/
def childrenOf (links : List L) (node : N) : List N :=
  (links.filter fun link => source link = node).map target

/-- Reaches one more node, unless it is reached already. -/
def reachNode (state : List N × List N) (node : N) : List N × List N :=
  if node ∈ state.2 then state else (node :: state.1, node :: state.2)

/-- Collects what the pending nodes reach. Every node is pending at most once, so one step
for each link and one for the start suffice. -/
def reachFrom (links : List L) : ℕ → List N → List N → List N
  | 0, _, reached => reached
  | _ + 1, [], reached => reached
  | fuel + 1, node :: pending, reached =>
    let state := (childrenOf source target links node).foldl reachNode (pending, reached)
    reachFrom links fuel state.1 state.2

/-- Reaching a list of nodes adds no other. -/
theorem mem_foldl_reachNode (nodes : List N) (state : List N × List N) (node : N) :
    (node ∈ (nodes.foldl reachNode state).1 → node ∈ state.1 ∨ node ∈ nodes)
      ∧ (node ∈ (nodes.foldl reachNode state).2 → node ∈ state.2 ∨ node ∈ nodes) := by
  induction nodes generalizing state with
  | nil => exact ⟨.inl, .inl⟩
  | cons head rest ih =>
    have hhead : (node ∈ (reachNode state head).1 → node ∈ state.1 ∨ node = head)
        ∧ (node ∈ (reachNode state head).2 → node ∈ state.2 ∨ node = head) := by
      unfold reachNode
      split
      · exact ⟨.inl, .inl⟩
      · simp [or_comm]
    rw [List.foldl_cons, List.mem_cons]
    constructor
    · intro h
      rcases (ih _).1 h with hmem | hrest
      · exact (hhead.1 hmem).imp_right .inl
      · exact .inr (.inr hrest)
    · intro h
      rcases (ih _).2 h with hmem | hrest
      · exact (hhead.2 hmem).imp_right .inl
      · exact .inr (.inr hrest)

/-- The worklist collects what the root reaches and nothing else. -/
theorem reaches_of_mem_reachFrom {links : List L} {root node : N} (fuel : ℕ)
    {pending reached : List N}
    (hpending : ∀ n ∈ pending, Reaches source target links root n)
    (hreached : ∀ n ∈ reached, Reaches source target links root n)
    (h : node ∈ reachFrom source target links fuel pending reached) :
    Reaches source target links root node := by
  induction fuel generalizing pending reached with
  | zero => exact hreached node h
  | succ fuel ih =>
    cases pending with
    | nil => exact hreached node h
    | cons head rest =>
      have hchild : ∀ n ∈ childrenOf source target links head,
          Reaches source target links root n := by
        intro n hn
        obtain ⟨link, hlink, rfl⟩ := List.mem_map.mp hn
        have hends := List.mem_filter.mp hlink
        exact (hpending head List.mem_cons_self).tail
          ⟨link, hends.1, by simpa using hends.2, rfl⟩
      refine ih (fun n hn => ?_) (fun n hn => ?_) h
      · rcases (mem_foldl_reachNode _ (rest, reached) n).1 hn with hold | hnew
        · exact hpending n (List.mem_cons_of_mem _ hold)
        · exact hchild n hnew
      · rcases (mem_foldl_reachNode _ (rest, reached) n).2 hn with hold | hnew
        · exact hreached n hold
        · exact hchild n hnew

/-- The targets that are not reached yet. -/
def unreached (links : List L) (reached : List N) : List N :=
  (links.map target).dedup.filter fun node => node ∉ reached

/-- Reaching a list of nodes makes each of them reached and pends the new ones. -/
theorem foldl_reachNode (nodes : List N) (pending reached : List N) :
    (∀ node ∈ reached, node ∈ (nodes.foldl reachNode (pending, reached)).2)
      ∧ (∀ node ∈ nodes, node ∈ (nodes.foldl reachNode (pending, reached)).2)
      ∧ (∀ node ∈ pending, node ∈ (nodes.foldl reachNode (pending, reached)).1)
      ∧ ∀ node ∈ (nodes.foldl reachNode (pending, reached)).2,
        node ∈ reached ∨ node ∈ (nodes.foldl reachNode (pending, reached)).1 := by
  induction nodes generalizing pending reached with
  | nil => exact ⟨fun _ h => h, by simp, fun _ h => h, fun _ h => .inl h⟩
  | cons head rest ih =>
    rw [List.foldl_cons]
    by_cases hhead : head ∈ reached
    · have hstep : reachNode (pending, reached) head = (pending, reached) := if_pos hhead
      obtain ⟨hkeep, hnew, hpend, hsplit⟩ := ih pending reached
      rw [hstep]
      refine ⟨hkeep, fun node hnode => ?_, hpend, hsplit⟩
      rcases List.mem_cons.mp hnode with rfl | hmem
      · exact hkeep _ hhead
      · exact hnew node hmem
    · have hstep : reachNode (pending, reached) head = (head :: pending, head :: reached) :=
        if_neg hhead
      obtain ⟨hkeep, hnew, hpend, hsplit⟩ := ih (head :: pending) (head :: reached)
      rw [hstep]
      refine ⟨fun node hnode => hkeep node (List.mem_cons_of_mem _ hnode), fun node hnode => ?_,
        fun node hnode => hpend node (List.mem_cons_of_mem _ hnode), fun node hnode => ?_⟩
      · rcases List.mem_cons.mp hnode with rfl | hmem
        · exact hkeep _ List.mem_cons_self
        · exact hnew node hmem
      · rcases hsplit node hnode with hmem | hmem
        · rcases List.mem_cons.mp hmem with rfl | hold
          · exact .inr (hpend _ List.mem_cons_self)
          · exact .inl hold
        · exact .inr hmem

/-- One more reached target leaves one fewer unreached. -/
theorem length_unreached_cons {links : List L} {reached : List N} {node : N}
    (htarget : node ∈ links.map target) (hnot : node ∉ reached) :
    (unreached target links (node :: reached)).length + 1
      ≤ (unreached target links reached).length := by
  have hsub : node :: unreached target links (node :: reached)
      ⊆ unreached target links reached := by
    intro n hn
    rcases List.mem_cons.mp hn with rfl | hmem
    · exact List.mem_filter.mpr ⟨List.mem_dedup.mpr htarget, by simpa using hnot⟩
    · obtain ⟨hin, hout⟩ := List.mem_filter.mp hmem
      simp only [List.mem_cons, not_or, decide_eq_true_eq] at hout
      exact List.mem_filter.mpr ⟨hin, by simpa using hout.2⟩
  have hnodup : (node :: unreached target links (node :: reached)).Nodup := by
    refine List.nodup_cons.mpr ⟨?_, (List.nodup_dedup _).filter _⟩
    intro hmem
    have := (List.mem_filter.mp hmem).2
    simp at this
  have hlength := (hnodup.subperm hsub).length_le
  rwa [List.length_cons] at hlength

/-- Reaching targets moves them from the unreached to the pending ones. -/
theorem length_foldl_reachNode {links : List L} {nodes : List N}
    (hnodes : ∀ node ∈ nodes, node ∈ links.map target) (pending reached : List N) :
    (nodes.foldl reachNode (pending, reached)).1.length
        + (unreached target links (nodes.foldl reachNode (pending, reached)).2).length
      ≤ pending.length + (unreached target links reached).length := by
  induction nodes generalizing pending reached with
  | nil => exact Nat.le_refl _
  | cons head rest ih =>
    have hrest := fun p r => ih (fun n hn => hnodes n (List.mem_cons_of_mem _ hn)) p r
    rw [List.foldl_cons]
    by_cases hhead : head ∈ reached
    · have hstep : reachNode (pending, reached) head = (pending, reached) := if_pos hhead
      rw [hstep]
      exact hrest pending reached
    · have hstep : reachNode (pending, reached) head = (head :: pending, head :: reached) :=
        if_neg hhead
      have hmove := length_unreached_cons target (hnodes head List.mem_cons_self) hhead
      have hnext := hrest (head :: pending) (head :: reached)
      rw [List.length_cons] at hnext
      rw [hstep]
      omega

/-- With fuel for the pending and the unreached nodes, the worklist ends with a set that
contains what it started with and is closed under the links. -/
theorem reachFrom_closed {links : List L} (fuel : ℕ) {pending reached : List N}
    (hfuel : pending.length + (unreached target links reached).length ≤ fuel)
    (hdone : ∀ node ∈ reached, node ∉ pending → ∀ child ∈ childrenOf source target links node,
      child ∈ reached) :
    (∀ node ∈ reached, node ∈ reachFrom source target links fuel pending reached)
      ∧ ∀ node ∈ reachFrom source target links fuel pending reached,
        ∀ child ∈ childrenOf source target links node,
          child ∈ reachFrom source target links fuel pending reached := by
  induction fuel generalizing pending reached with
  | zero =>
    have hnil : pending = [] := List.length_eq_zero_iff.mp (by omega)
    subst hnil
    exact ⟨fun _ h => h, fun node hnode => hdone node hnode (by simp)⟩
  | succ fuel ih =>
    cases pending with
    | nil => exact ⟨fun _ h => h, fun node hnode => hdone node hnode (by simp)⟩
    | cons head rest =>
      obtain ⟨hkeep, hnew, hpend, hsplit⟩ :=
        foldl_reachNode (childrenOf source target links head) rest reached
      have hchildren : ∀ n ∈ childrenOf source target links head, n ∈ links.map target := by
        intro n hn
        obtain ⟨link, hlink, rfl⟩ := List.mem_map.mp hn
        exact List.mem_map_of_mem (List.mem_filter.mp hlink).1
      have hlength := length_foldl_reachNode target hchildren rest reached
      rw [List.length_cons] at hfuel
      have hnext := @ih ((childrenOf source target links head).foldl reachNode
        (rest, reached)).1 ((childrenOf source target links head).foldl reachNode
        (rest, reached)).2 (by omega) ?closed
      · exact ⟨fun node hnode => hnext.1 node (hkeep node hnode), hnext.2⟩
      · intro node hnode hnot child hchild
        rcases hsplit node hnode with hold | hmem
        · by_cases heq : node = head
          · exact hnew child (heq ▸ hchild)
          · refine hkeep child (hdone node hold (fun hin => ?_) child hchild)
            rcases List.mem_cons.mp hin with hhead | hrest
            · exact heq hhead
            · exact hnot (hpend node hrest)
        · exact absurd hmem hnot

/-- The worklist collects everything that the root reaches. -/
theorem mem_reachFrom_of_reaches {links : List L} {root node : N}
    (h : Reaches source target links root node) :
    node ∈ reachFrom source target links (links.length + 1) [root] [root] := by
  have hunreached : (unreached target links [root]).length ≤ links.length := by
    refine Nat.le_trans (List.length_filter_le _ _) ?_
    refine Nat.le_trans (List.dedup_sublist _).length_le ?_
    exact Nat.le_of_eq (List.length_map _)
  obtain ⟨hstart, hclosed⟩ := @reachFrom_closed _ _ _ source target links (links.length + 1)
    [root] [root] (by rw [List.length_singleton]; omega)
    (fun node hnode hnot => absurd hnode hnot)
  induction h with
  | refl => exact hstart root (List.mem_singleton.mpr rfl)
  | tail _ hlink ih =>
    obtain ⟨link, hmem, hsource, htarget⟩ := hlink
    refine hclosed _ ih _ (List.mem_map.mpr ⟨link, List.mem_filter.mpr ⟨hmem, ?_⟩, htarget⟩)
    simpa using hsource

/-! ### The scan -/

/-- One pass over the pending links. -/
structure LinkScan (N : Type u) (L : Type v) where
  reached : List N
  retained : List L
  remainder : List L

/-- Keeps a link whose source is reached. -/
def scanLink (scan : LinkScan N L) (link : L) : LinkScan N L :=
  if source link ∈ scan.reached then
    { scan with
      reached := target link :: scan.reached, retained := scan.retained ++ [link] }
  else { scan with remainder := scan.remainder ++ [link] }

/-- Scans the pending links until a pass keeps none. Every other pass leaves fewer of them,
so as many passes as links suffice. -/
def retainLinks : ℕ → List N → List L → List L
  | 0, _, _ => []
  | fuel + 1, reached, pending =>
    let scan := pending.foldl (scanLink source target) ⟨reached, [], []⟩
    if scan.retained.isEmpty then []
    else scan.retained ++ retainLinks fuel scan.reached scan.remainder

/-- What a pass has done to the links it has seen. -/
structure LinkScan.Covers (scan : LinkScan N L) (start : List N) (seen : List L) : Prop where
  split : ∀ link, link ∈ seen ↔ link ∈ scan.retained ∨ link ∈ scan.remainder
  length : scan.retained.length + scan.remainder.length = seen.length
  start_sub : ∀ node ∈ start, node ∈ scan.reached
  targets : ∀ link ∈ scan.retained, target link ∈ scan.reached
  idle : scan.retained = [] → ∀ link ∈ seen, source link ∉ start

variable {source target}

/-- Seeing one more link. -/
theorem LinkScan.Covers.scanLink {scan : LinkScan N L} {start : List N} {seen : List L}
    (h : scan.Covers source target start seen) (hidle : scan.retained = [] → scan.reached = start)
    (link : L) :
    (scanLink source target scan link).Covers source target start (seen ++ [link])
      ∧ ((scanLink source target scan link).retained = [] →
        (scanLink source target scan link).reached = start) := by
  unfold Mocop.scanLink
  split
  · refine ⟨⟨fun l => ?_, ?_, fun n hn => ?_, fun l hl => ?_, fun hnil => ?_⟩, fun hnil => ?_⟩
    · simp only [List.mem_append, h.split, List.mem_singleton]
      tauto
    · simp only [List.length_append, List.length_singleton]
      have := h.length
      omega
    · exact List.mem_cons_of_mem _ (h.start_sub n hn)
    · rcases List.mem_append.mp hl with hold | hnew
      · exact List.mem_cons_of_mem _ (h.targets l hold)
      · rw [List.mem_singleton.mp hnew]
        exact List.mem_cons_self
    · simp at hnil
    · simp at hnil
  · next hnot =>
    refine ⟨⟨fun l => ?_, ?_, h.start_sub, h.targets, fun hnil l hl => ?_⟩, hidle⟩
    · simp only [List.mem_append, h.split, List.mem_singleton]
      tauto
    · simp only [List.length_append, List.length_singleton]
      have := h.length
      omega
    · rcases List.mem_append.mp hl with hold | hnew
      · exact h.idle hnil l hold
      · rw [List.mem_singleton.mp hnew, ← hidle hnil]
        exact hnot

variable (source target) in
/-- What a whole pass does. -/
theorem covers_scan (start : List N) (pending : List L) :
    (pending.foldl (scanLink source target) ⟨start, [], []⟩).Covers source target start
      pending := by
  have hfold : ∀ (l seen : List L) (scan : LinkScan N L),
      scan.Covers source target start seen → (scan.retained = [] → scan.reached = start) →
      (l.foldl (scanLink source target) scan).Covers source target start (seen ++ l) := by
    intro l
    induction l with
    | nil =>
      intro seen scan h _
      rwa [List.append_nil]
    | cons link rest ih =>
      intro seen scan h hidle
      obtain ⟨hnext, hidle'⟩ := h.scanLink hidle link
      have := ih (seen ++ [link]) _ hnext hidle'
      rwa [List.append_assoc] at this
  have := hfold pending [] ⟨start, [], []⟩
    ⟨by simp, rfl, fun _ h => h, by simp, by simp⟩ (fun _ => rfl)
  rwa [List.nil_append] at this

/-- The scan keeps only pending links. -/
theorem mem_of_mem_retainLinks {fuel : ℕ} {reached : List N} {pending : List L} {link : L}
    (h : link ∈ retainLinks source target fuel reached pending) : link ∈ pending := by
  induction fuel generalizing reached pending with
  | zero => cases h
  | succ fuel ih =>
    have hscan := covers_scan source target reached pending
    rw [retainLinks] at h
    split at h
    · cases h
    · rcases List.mem_append.mp h with hkept | hrest
      · exact (hscan.split link).mpr (.inl hkept)
      · exact (hscan.split link).mpr (.inr (ih hrest))

omit [DecidableEq N] in
/-- A node reached before a pass is reached after it, along the links that the pass leaves,
from a node that it has reached. -/
theorem LinkScan.Covers.reaches {scan : LinkScan N L} {start : List N} {pending : List L}
    (h : scan.Covers source target start pending) {a b : N} (ha : a ∈ start)
    (hab : Reaches source target pending a b) :
    ∃ c ∈ scan.reached, Reaches source target scan.remainder c b := by
  induction hab with
  | refl => exact ⟨a, h.start_sub a ha, .refl⟩
  | tail _ hlink ih =>
    obtain ⟨c, hc, hpath⟩ := ih
    obtain ⟨link, hmem, hsource, htarget⟩ := hlink
    rcases (h.split link).mp hmem with hkept | hleft
    · exact ⟨_, h.targets link hkept, htarget ▸ .refl⟩
    · exact ⟨c, hc, hpath.tail ⟨link, hleft, hsource, htarget⟩⟩

/-- The scan keeps every link whose source is reachable. -/
theorem mem_retainLinks {fuel : ℕ} {reached : List N} {pending : List L} {link : L} {a : N}
    (hfuel : pending.length ≤ fuel) (hlink : link ∈ pending) (ha : a ∈ reached)
    (hpath : Reaches source target pending a (source link)) :
    link ∈ retainLinks source target fuel reached pending := by
  induction fuel generalizing reached pending a with
  | zero =>
    rw [List.length_eq_zero_iff.mp (Nat.le_zero.mp hfuel)] at hlink
    cases hlink
  | succ fuel ih =>
    have hscan := covers_scan source target reached pending
    rw [retainLinks]
    split
    · next hempty =>
      -- Nothing was kept, so no pending link starts at a reached node.
      have hidle := hscan.idle (List.isEmpty_iff.mp hempty)
      rcases hpath.cases_head with heq | ⟨b, ⟨first, hfirst, hsource, _⟩, _⟩
      · exact absurd (heq ▸ ha) (hidle link hlink)
      · exact absurd (hsource ▸ ha) (hidle first hfirst)
    · next hkept =>
      rcases (hscan.split link).mp hlink with hmem | hleft
      · exact List.mem_append_left _ hmem
      · obtain ⟨c, hc, hrest⟩ := hscan.reaches ha hpath
        have hlt : 0 < (pending.foldl (scanLink source target)
            ⟨reached, [], []⟩).retained.length :=
          List.length_pos_iff.mpr fun hnil => hkept (List.isEmpty_iff.mpr hnil)
        have hlength := hscan.length
        exact List.mem_append_right _ (ih (by omega) hleft hc hrest)

variable (source target) in
/-- What a pass keeps is reached along the kept links. -/
structure LinkScan.Grown (scan : LinkScan N L) (start : List N) : Prop where
  reached : ∀ node ∈ scan.reached, ∃ a ∈ start, Reaches source target scan.retained a node
  sources : ∀ link ∈ scan.retained, ∃ a ∈ start,
    Reaches source target scan.retained a (source link)

/-- Seeing one more link. -/
theorem LinkScan.Grown.scanLink {scan : LinkScan N L} {start : List N}
    (h : scan.Grown source target start) (link : L) :
    (scanLink source target scan link).Grown source target start := by
  have hsub : scan.retained ⊆ scan.retained ++ [link] := List.subset_append_left _ _
  unfold Mocop.scanLink
  split
  · next hsource =>
    obtain ⟨a, ha, hpath⟩ := h.reached _ hsource
    refine ⟨fun node hnode => ?_, fun l hl => ?_⟩
    · rcases List.mem_cons.mp hnode with rfl | hold
      · exact ⟨a, ha, (hpath.mono source target hsub).tail
          ⟨link, List.mem_append_right _ (List.mem_singleton.mpr rfl), rfl, rfl⟩⟩
      · obtain ⟨b, hb, hold⟩ := h.reached node hold
        exact ⟨b, hb, hold.mono source target hsub⟩
    · rcases List.mem_append.mp hl with hold | hnew
      · obtain ⟨b, hb, hold⟩ := h.sources l hold
        exact ⟨b, hb, hold.mono source target hsub⟩
      · rw [List.mem_singleton.mp hnew]
        exact ⟨a, ha, hpath.mono source target hsub⟩
  · exact ⟨h.reached, h.sources⟩

variable (source target) in
/-- What a whole pass keeps. -/
theorem grown_scan (start : List N) (pending : List L) :
    (pending.foldl (scanLink source target) ⟨start, [], []⟩).Grown source target start := by
  have hfold : ∀ (l : List L) (scan : LinkScan N L),
      scan.Grown source target start →
      (l.foldl (scanLink source target) scan).Grown source target start := by
    intro l
    induction l with
    | nil => exact fun _ h => h
    | cons link rest ih => exact fun scan h => ih _ (h.scanLink link)
  exact hfold pending _ ⟨fun node hnode => ⟨node, hnode, .refl⟩, by simp⟩

/-- Every link that the scan keeps starts at a node that is reached along the kept links. -/
theorem reaches_retainLinks {fuel : ℕ} {reached : List N} {pending : List L} {link : L}
    (h : link ∈ retainLinks source target fuel reached pending) :
    ∃ a ∈ reached, Reaches source target (retainLinks source target fuel reached pending) a
      (source link) := by
  induction fuel generalizing reached pending with
  | zero => cases h
  | succ fuel ih =>
    have hgrown := grown_scan source target reached pending
    rw [retainLinks] at h ⊢
    split at h
    · cases h
    · next hkept =>
      rw [if_neg hkept]
      rcases List.mem_append.mp h with hmem | hrest
      · obtain ⟨a, ha, hpath⟩ := hgrown.sources link hmem
        exact ⟨a, ha, hpath.mono source target (List.subset_append_left _ _)⟩
      · obtain ⟨b, hb, hpath⟩ := ih hrest
        obtain ⟨a, ha, hstart⟩ := hgrown.reached b hb
        exact ⟨a, ha, (hstart.mono source target (List.subset_append_left _ _)).trans
          (hpath.mono source target (List.subset_append_right _ _))⟩

/-- The scan keeps exactly the links whose source the root reaches. -/
theorem mem_retainLinks_iff {root : N} {pending : List L} {link : L} :
    link ∈ retainLinks source target pending.length [root] pending
      ↔ link ∈ pending ∧ Reaches source target pending root (source link) := by
  constructor
  · intro h
    obtain ⟨a, ha, hpath⟩ := reaches_retainLinks h
    rw [List.mem_singleton.mp ha] at hpath
    exact ⟨mem_of_mem_retainLinks h, hpath.mono source target fun _ => mem_of_mem_retainLinks⟩
  · rintro ⟨hlink, hpath⟩
    exact mem_retainLinks (Nat.le_refl _) hlink (List.mem_singleton.mpr rfl) hpath

variable (source target) in
/-- A pass splits the pending links. -/
theorem perm_scan (start : List N) (pending : List L) :
    ((pending.foldl (scanLink source target) ⟨start, [], []⟩).retained
      ++ (pending.foldl (scanLink source target) ⟨start, [], []⟩).remainder).Perm pending := by
  have hfold : ∀ (l : List L) (scan : LinkScan N L),
      ((l.foldl (scanLink source target) scan).retained
        ++ (l.foldl (scanLink source target) scan).remainder).Perm
        (l ++ (scan.retained ++ scan.remainder)) := by
    intro l
    induction l with
    | nil => exact fun _ => .refl _
    | cons link rest ih =>
      intro scan
      have hstep : ((scanLink source target scan link).retained
          ++ (scanLink source target scan link).remainder).Perm
          (link :: (scan.retained ++ scan.remainder)) := by
        unfold Mocop.scanLink
        split
        · show (scan.retained ++ [link] ++ scan.remainder).Perm _
          rw [List.append_assoc]
          exact List.perm_middle
        · show (scan.retained ++ (scan.remainder ++ [link])).Perm _
          rw [← List.append_assoc]
          exact List.perm_append_singleton _ _
      refine (ih _).trans ((hstep.append_left rest).trans ?_)
      exact List.perm_middle
  have h := hfold pending ⟨start, [], []⟩
  rwa [List.append_nil, List.append_nil] at h

/-- The scan keeps no link twice. -/
theorem retainLinks_subperm (fuel : ℕ) (reached : List N) (pending : List L) :
    (retainLinks source target fuel reached pending).Subperm pending := by
  induction fuel generalizing reached pending with
  | zero => exact List.nil_subperm
  | succ fuel ih =>
    rw [retainLinks]
    split
    · exact List.nil_subperm
    · have hrest := ih (pending.foldl (scanLink source target) ⟨reached, [], []⟩).reached
        (pending.foldl (scanLink source target) ⟨reached, [], []⟩).remainder
      exact ((List.subperm_append_left _).mpr hrest).trans
        (perm_scan source target reached pending).subperm

end Mocop
