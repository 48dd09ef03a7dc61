import Mocop.Lib.Dict
import Mocop.Lib.Links
import Mathlib.Data.Finset.Union

/-!
# `Mocop.Lib.LinkTrees`: trees that are given by their links

A list of links is a tree under a root (`IsLinkTree`) when no link runs into the root, no two
links run into one node, and every link starts at a node that the root reaches. Then every node
that the root reaches has one depth (`LinkWalk.unique`), and the depth is at most the number of
links
(`LinkWalk.le_length`), so a recursion along the links ends.

Two traversals of such a tree. `nodeDepths` is a worklist that writes down the depth of every
node (`get?_nodeDepths`). `visit` is a recursion that collects the marked nodes below every node
(`get?_visit`).
-/

set_option autoImplicit false

namespace Mocop

universe u v

variable {N : Type u} {L : Type v} [DecidableEq N] (source target : L → N)

/-- The links form one tree under the root. -/
structure IsLinkTree (root : N) (links : List L) : Prop where
  no_root : ∀ link ∈ links, target link ≠ root
  one_parent : (links.map target).Nodup
  reached : ∀ link ∈ links, Reaches source target links root (source link)

/-- A walk of the given length from the root. -/
inductive LinkWalk (root : N) (links : List L) : ℕ → N → Prop where
  | start : LinkWalk root links 0 root
  | step {depth : ℕ} {parent node : N} : LinkWalk root links depth parent →
      Linked source target links parent node → LinkWalk root links (depth + 1) node

variable {source target} {root : N} {links : List L}

namespace IsLinkTree

omit [DecidableEq N] in
/-- A node of a tree has one parent. -/
theorem parent_unique (tree : IsLinkTree source target root links) {a b node : N}
    (ha : Linked source target links a node) (hb : Linked source target links b node) :
    a = b := by
  obtain ⟨link, hlink, rfl, htarget⟩ := ha
  obtain ⟨other, hother, rfl, htarget'⟩ := hb
  rw [List.inj_on_of_nodup_map tree.one_parent hlink hother (htarget.trans htarget'.symm)]

omit [DecidableEq N] in
/-- Nothing runs into the root of a tree. -/
theorem not_linked_root (tree : IsLinkTree source target root links) (a : N) :
    ¬ Linked source target links a root :=
  fun ⟨link, hlink, _, htarget⟩ => tree.no_root link hlink htarget

omit [DecidableEq N] in
/-- A node of a tree has one depth. -/
theorem walk_unique (tree : IsLinkTree source target root links) {node : N} {d e : ℕ}
    (hd : LinkWalk source target root links d node)
    (he : LinkWalk source target root links e node) :
    d = e := by
  induction hd generalizing e with
  | start =>
    cases he with
    | start => rfl
    | step _ hlink => exact absurd hlink (tree.not_linked_root _)
  | step hwalk hlink ih =>
    cases he with
    | start => exact absurd hlink (tree.not_linked_root _)
    | step hwalk' hlink' =>
      obtain rfl := tree.parent_unique hlink hlink'
      rw [ih hwalk']

omit [DecidableEq N] in
/-- The depth of a node is at most the number of links: the nodes of the walk to it differ, and
all but the root are targets. -/
theorem walk_le_length (tree : IsLinkTree source target root links) {node : N} {depth : ℕ}
    (h : LinkWalk source target root links depth node) : depth ≤ links.length := by
  have hnodes : ∃ nodes : List N, nodes.Nodup ∧ nodes ⊆ links.map target
      ∧ nodes.length = depth
      ∧ ∀ n ∈ nodes, ∃ d ≤ depth, LinkWalk source target root links d n := by
    induction h with
    | start => exact ⟨[], List.nodup_nil, by simp, rfl, by simp⟩
    | @step depth parent node hwalk hlink ih =>
      obtain ⟨nodes, hnodup, htargets, hlength, hdepths⟩ := ih
      refine ⟨node :: nodes, List.nodup_cons.mpr ⟨fun hmem => ?_, hnodup⟩,
        List.cons_subset.mpr ⟨?_, htargets⟩, by rw [List.length_cons, hlength],
        fun n hn => ?_⟩
      · -- a node that comes twice would have two depths
        obtain ⟨d, hle, hearlier⟩ := hdepths node hmem
        have heq := tree.walk_unique hearlier (hwalk.step hlink)
        omega
      · obtain ⟨link, hmem, -, htarget⟩ := hlink
        exact htarget ▸ List.mem_map_of_mem hmem
      · rcases List.mem_cons.mp hn with rfl | hn
        · exact ⟨depth + 1, le_rfl, hwalk.step hlink⟩
        · obtain ⟨d, hle, hearlier⟩ := hdepths n hn
          exact ⟨d, Nat.le_succ_of_le hle, hearlier⟩
  obtain ⟨nodes, hnodup, htargets, hlength, -⟩ := hnodes
  have hle := (hnodup.subperm htargets).length_le
  rw [hlength, List.length_map] at hle
  exact hle

end IsLinkTree

/-- The children of a node. -/
theorem mem_childrenOf {a b : N} :
    b ∈ childrenOf source target links a ↔ Linked source target links a b := by
  unfold childrenOf
  rw [List.mem_map]
  constructor
  · rintro ⟨link, hlink, htarget⟩
    obtain ⟨hmem, hsource⟩ := List.mem_filter.mp hlink
    exact ⟨link, hmem, by simpa using hsource, htarget⟩
  · rintro ⟨link, hmem, hsource, htarget⟩
    exact ⟨link, List.mem_filter.mpr ⟨hmem, by simpa using hsource⟩, htarget⟩

/-- The children of a node of a tree differ. -/
theorem IsLinkTree.nodup_childrenOf (tree : IsLinkTree source target root links) (node : N) :
    (childrenOf source target links node).Nodup :=
  tree.one_parent.sublist (List.filter_sublist.map target)

/-! ### The depths -/

variable (source target) in
/-- Writes down the depths of the nodes that the pending ones reach. The node that was pended
last is taken first, and a pending node has its depth. -/
def nodeDepths (links : List L) : ℕ → List N → Dict N ℕ → Dict N ℕ
  | 0, _, depths => depths
  | _ + 1, [], depths => depths
  | fuel + 1, node :: pending, depths =>
    let children := childrenOf source target links node
    let depth := depths.getD node 0 + 1
    nodeDepths links fuel (children.reverse ++ pending)
      (children.foldl (fun depths child => depths.set child depth) depths)

/-- Writing one value under several keys. -/
theorem get?_foldl_const {ν : Type*} (keys : List N) (value : ν) (d : Dict N ν) (key : N) :
    (keys.foldl (fun d key => d.set key value) d).get? key
      = if key ∈ keys then some value else d.get? key := by
  induction keys generalizing d with
  | nil => simp
  | cons first rest ih =>
    rw [List.foldl_cons, ih, Dict.get?_set]
    by_cases hrest : key ∈ rest
    · simp [hrest]
    · simp [hrest]

/-- Where the worklist stands: the nodes that it has finished, those that are pending, and the
depths. Every node but the root has a finished parent, and the children of a finished node are
finished or pending. -/
structure Deepens (source target : L → N) (root : N) (links : List L) (finished pending : List N)
    (depths : Dict N ℕ) : Prop where
  nodup : (finished ++ pending).Nodup
  walk : ∀ node ∈ finished ++ pending, ∃ depth, depths.get? node = some depth
    ∧ LinkWalk source target root links depth node
  root_mem : root ∈ finished ++ pending
  parent : ∀ node ∈ finished ++ pending, node = root
    ∨ ∃ parent ∈ finished, Linked source target links parent node
  closed : ∀ parent ∈ finished, ∀ node, Linked source target links parent node →
    node ∈ finished ++ pending

/-- One node of the worklist. -/
theorem Deepens.step (tree : IsLinkTree source target root links) {finished pending : List N}
    {node : N} {depths : Dict N ℕ}
    (h : Deepens source target root links finished (node :: pending) depths) :
    Deepens source target root links (node :: finished)
      ((childrenOf source target links node).reverse ++ pending)
      ((childrenOf source target links node).foldl
        (fun d child => d.set child (depths.getD node 0 + 1)) depths) := by
  obtain ⟨depth, hdepth, hwalk⟩ := h.walk node (by simp)
  have hgetD : depths.getD node 0 = depth := by rw [Dict.getD_eq, hdepth]; rfl
  -- a child is new, since its one parent is not finished yet
  have hunfinished : node ∉ finished := fun hmem => by
    have hdistinct := List.disjoint_of_nodup_append h.nodup hmem
    exact hdistinct List.mem_cons_self
  have hnew : ∀ child, Linked source target links node child →
      child ∉ finished ++ node :: pending := by
    intro child hlink hmem
    rcases h.parent child hmem with rfl | ⟨parent, hparent, hlink'⟩
    · exact tree.not_linked_root node hlink
    · exact hunfinished (tree.parent_unique hlink' hlink ▸ hparent)
  have hmem : ∀ other, other ∈ (node :: finished)
      ++ ((childrenOf source target links node).reverse ++ pending)
        ↔ other ∈ finished ++ node :: pending ∨ Linked source target links node other := by
    intro other
    simp only [List.mem_append, List.mem_cons, List.mem_reverse, mem_childrenOf]
    tauto
  have hread : ∀ other, ((childrenOf source target links node).foldl
      (fun d child => d.set child (depths.getD node 0 + 1)) depths).get? other
        = if other ∈ childrenOf source target links node then some (depth + 1)
          else depths.get? other := by
    intro other
    rw [get?_foldl_const, hgetD]
  exact {
    nodup := by
      have hparts := List.nodup_append.mp h.nodup
      have hrest := List.nodup_cons.mp hparts.2.1
      have hchildren : ∀ child ∈ childrenOf source target links node,
          child ∉ finished ++ node :: pending :=
        fun child hchild => hnew child (mem_childrenOf.mp hchild)
      have hperm : ((node :: finished)
          ++ ((childrenOf source target links node).reverse ++ pending)).Perm
            (childrenOf source target links node ++ (finished ++ node :: pending)) := by
        have hmoved : (childrenOf source target links node
            ++ (finished ++ node :: pending)).Perm
              (node :: (childrenOf source target links node ++ (finished ++ pending))) :=
          (List.perm_middle.append_left _).trans List.perm_middle
        refine List.Perm.trans ?_ hmoved.symm
        refine List.Perm.cons node ?_
        show (finished ++ ((childrenOf source target links node).reverse ++ pending)).Perm
          (childrenOf source target links node ++ (finished ++ pending))
        rw [← List.append_assoc, ← List.append_assoc]
        exact (List.perm_append_comm.trans
          ((List.reverse_perm _).append_right finished)).append_right pending
      rw [hperm.nodup_iff]
      refine List.nodup_append.mpr ⟨tree.nodup_childrenOf node, h.nodup, ?_⟩
      intro child hchild other hother heq
      exact hchildren child hchild (heq ▸ hother)
    walk := fun other hother => by
      rw [hread]
      by_cases hchild : other ∈ childrenOf source target links node
      · rw [if_pos hchild]
        exact ⟨depth + 1, rfl, hwalk.step (mem_childrenOf.mp hchild)⟩
      · rw [if_neg hchild]
        exact h.walk other (((hmem other).mp hother).resolve_right
          (fun hlink => hchild (mem_childrenOf.mpr hlink)))
    root_mem := (hmem root).mpr (Or.inl h.root_mem)
    parent := fun other hother => by
      rcases (hmem other).mp hother with hold | hlink
      · exact (h.parent other hold).imp id (fun ⟨parent, hparent, hlink⟩ =>
          ⟨parent, List.mem_cons_of_mem node hparent, hlink⟩)
      · exact Or.inr ⟨node, List.mem_cons_self, hlink⟩
    closed := fun parent hparent other hlink => by
      rcases List.mem_cons.mp hparent with rfl | hparent
      · exact (hmem other).mpr (Or.inr hlink)
      · exact (hmem other).mpr (Or.inl (h.closed parent hparent other hlink)) }

/-- Given a step for each node, the worklist ends with everything finished. -/
theorem Deepens.run (tree : IsLinkTree source target root links) (fuel : ℕ)
    {finished pending : List N} {depths : Dict N ℕ}
    (h : Deepens source target root links finished pending depths)
    (hfuel : links.length + 1 ≤ fuel + finished.length) :
    ∃ all, Deepens source target root links all []
      (nodeDepths source target links fuel pending depths) := by
  induction fuel generalizing finished pending depths with
  | zero =>
    -- the finished nodes are already as many as the tree has
    have hbound : (finished ++ pending).length ≤ links.length + 1 := by
      have hsub : finished ++ pending ⊆ root :: links.map target := fun node hnode => by
        rcases h.parent node hnode with rfl | ⟨_, _, link, hlink, -, htarget⟩
        · exact List.mem_cons_self
        · exact List.mem_cons_of_mem _ (htarget ▸ List.mem_map_of_mem hlink)
      have hle := (h.nodup.subperm hsub).length_le
      simpa using hle
    have hnone : pending = [] := by
      rw [List.length_append] at hbound
      exact List.length_eq_zero_iff.mp (by omega)
    exact ⟨finished, hnone ▸ h⟩
  | succ fuel ih =>
    cases pending with
    | nil => exact ⟨finished, h⟩
    | cons node pending =>
      exact ih (h.step tree) (by rw [List.length_cons]; omega)

/-- The worklist writes down the depth of every node of the tree. -/
theorem get?_nodeDepths (tree : IsLinkTree source target root links) {node : N}
    (hreaches : Reaches source target links root node) : ∃ depth,
      (nodeDepths source target links (links.length + 1) [root]
        ((∅ : Dict N ℕ).set root 0)).get? node = some depth
        ∧ LinkWalk source target root links depth node := by
  have hstart : Deepens source target root links [] [root] ((∅ : Dict N ℕ).set root 0) :=
    { nodup := List.nodup_singleton root
      walk := fun other hother => by
        obtain rfl := List.mem_singleton.mp hother
        exact ⟨0, by simp, .start⟩
      root_mem := List.mem_singleton_self root
      parent := fun other hother => Or.inl (List.mem_singleton.mp hother)
      closed := fun parent hparent => by simp at hparent }
  obtain ⟨all, hall⟩ := hstart.run tree (links.length + 1) (by simp)
  refine hall.walk node ?_
  rw [List.append_nil]
  induction hreaches with
  | refl => simpa using hall.root_mem
  | tail _ hlink ih => simpa using hall.closed _ ih _ hlink

/-! ### What is below a node -/

/-- Visits one child of a node, and adds what was found below it. -/
def visitChild (visit : N → Dict N (Finset N) → Finset N × Dict N (Finset N))
    (state : Finset N × Dict N (Finset N)) (child : N) : Finset N × Dict N (Finset N) :=
  let found := visit child state.2
  (state.1 ∪ found.1, found.2)

variable (source target) in
/-- Collects the marked nodes at or below a node, and writes them down for every node on the
way. -/
def visit (links : List L) (marked : Finset N) :
    ℕ → N → Dict N (Finset N) → Finset N × Dict N (Finset N)
  | 0, _, below => (∅, below)
  | fuel + 1, node, below =>
    let state := (childrenOf source target links node).foldl
      (visitChild (visit links marked fuel)) (if node ∈ marked then {node} else ∅, below)
    (state.1, state.2.set node state.1)

open Classical in
variable (source target) in
/-- The marked nodes at or below a node. -/
noncomputable def markedBelow (links : List L) (marked : Finset N) (node : N) : Finset N :=
  marked.filter (Reaches source target links node)

omit [DecidableEq N] in
theorem mem_markedBelow {marked : Finset N} {node other : N} :
    other ∈ markedBelow source target links marked node
      ↔ other ∈ marked ∧ Reaches source target links node other := by
  classical
  exact Finset.mem_filter

/-- A node reaches itself and what its children reach. -/
theorem reaches_iff {node other : N} :
    Reaches source target links node other ↔ other = node
      ∨ ∃ child ∈ childrenOf source target links node,
          Reaches source target links child other := by
  refine Relation.ReflTransGen.cases_head_iff.trans ?_
  simp only [mem_childrenOf]
  exact or_congr eq_comm Iff.rfl

/-- What a visit makes of the dictionary: it writes down what is below the nodes that were
reached, and leaves the others. -/
structure Writes (source target : L → N) (links : List L) (marked : Finset N)
    (reached : N → Prop) (before after : Dict N (Finset N)) : Prop where
  written : ∀ node, reached node →
    after.get? node = some (markedBelow source target links marked node)
  kept : ∀ node, ¬ reached node → after.get? node = before.get? node

variable {marked : Finset N}

/-- The loop over the children, for a visit that is right for each of them. -/
theorem foldl_visitChild {go : N → Dict N (Finset N) → Finset N × Dict N (Finset N)}
    (children : List N)
    (hgo : ∀ child ∈ children, ∀ below,
      (go child below).1 = markedBelow source target links marked child
        ∧ Writes source target links marked (Reaches source target links child) below
            (go child below).2)
    (state : Finset N × Dict N (Finset N)) :
    (∀ node, node ∈ (children.foldl (visitChild go) state).1 ↔ node ∈ state.1
        ∨ ∃ child ∈ children, node ∈ markedBelow source target links marked child)
      ∧ Writes source target links marked
          (fun node => ∃ child ∈ children, Reaches source target links child node)
          state.2 (children.foldl (visitChild go) state).2 := by
  induction children generalizing state with
  | nil => exact ⟨fun node => by simp, fun node h => by simp at h, fun node _ => rfl⟩
  | cons child rest ih =>
    obtain ⟨hfound, hchild⟩ := hgo child List.mem_cons_self state.2
    obtain ⟨hset, hrest⟩ := ih (fun other hother =>
      hgo other (List.mem_cons_of_mem _ hother)) (visitChild go state child)
    rw [List.foldl_cons]
    refine ⟨fun node => ?_, fun node hreached => ?_, fun node hnot => ?_⟩
    · rw [hset node, visitChild, Finset.mem_union, hfound, or_assoc]
      simp only [List.mem_cons, exists_eq_or_imp]
    · by_cases hlater : ∃ child ∈ rest, Reaches source target links child node
      · exact hrest.written node hlater
      · -- no later child reaches the node, so this one does
        obtain ⟨visited, hmem, hreaches⟩ := hreached
        rw [hrest.kept node hlater]
        rcases List.mem_cons.mp hmem with rfl | hmem
        · exact hchild.written node hreaches
        · exact absurd ⟨visited, hmem, hreaches⟩ hlater
    · rw [hrest.kept node (fun ⟨visited, hmem, hreaches⟩ =>
        hnot ⟨visited, List.mem_cons_of_mem _ hmem, hreaches⟩)]
      exact hchild.kept node (fun hreaches => hnot ⟨child, List.mem_cons_self, hreaches⟩)

/-- What is below a node: itself if it is marked, and what is below its children. -/
theorem mem_markedBelow_iff {node other : N} :
    other ∈ markedBelow source target links marked node ↔
      other ∈ (if node ∈ marked then {node} else ∅ : Finset N)
        ∨ ∃ child ∈ childrenOf source target links node,
            other ∈ markedBelow source target links marked child := by
  have hown : other ∈ (if node ∈ marked then {node} else ∅ : Finset N)
      ↔ other ∈ marked ∧ other = node := by
    by_cases hmarked : node ∈ marked
    · rw [if_pos hmarked, Finset.mem_singleton]
      exact ⟨fun h => ⟨h ▸ hmarked, h⟩, fun h => h.2⟩
    · rw [if_neg hmarked]
      exact ⟨fun h => absurd h (Finset.notMem_empty other), fun h => absurd (h.2 ▸ h.1) hmarked⟩
  rw [hown, mem_markedBelow, reaches_iff]
  simp only [mem_markedBelow]
  constructor
  · rintro ⟨hother, heq | ⟨child, hchild, hreaches⟩⟩
    · exact Or.inl ⟨hother, heq⟩
    · exact Or.inr ⟨child, hchild, hother, hreaches⟩
  · rintro (⟨hother, heq⟩ | ⟨child, hchild, hother, hreaches⟩)
    · exact ⟨hother, Or.inl heq⟩
    · exact ⟨hother, Or.inr ⟨child, hchild, hreaches⟩⟩

/-- A visit of a node with enough fuel for the depth that is left. -/
theorem visit_spec (tree : IsLinkTree source target root links) (fuel : ℕ) {node : N}
    {depth : ℕ} (hwalk : LinkWalk source target root links depth node)
    (hfuel : links.length + 1 ≤ depth + fuel) (below : Dict N (Finset N)) :
    (visit source target links marked fuel node below).1
        = markedBelow source target links marked node
      ∧ Writes source target links marked (Reaches source target links node) below
          (visit source target links marked fuel node below).2 := by
  induction fuel generalizing node depth below with
  | zero =>
    have hle := tree.walk_le_length hwalk
    omega
  | succ fuel ih =>
    obtain ⟨hset, hloop⟩ := foldl_visitChild (childrenOf source target links node)
      (fun child hchild below => ih (hwalk.step (mem_childrenOf.mp hchild)) (by omega) below)
      (if node ∈ marked then {node} else ∅, below)
    have hfound : ((childrenOf source target links node).foldl
        (visitChild (visit source target links marked fuel))
          (if node ∈ marked then {node} else ∅, below)).1
        = markedBelow source target links marked node := by
      ext other
      rw [hset other, mem_markedBelow_iff]
    rw [visit]
    refine ⟨hfound, fun other hreaches => ?_, fun other hnot => ?_⟩
    · rw [Dict.get?_set, hfound]
      by_cases hother : other = node
      · rw [if_pos hother, hother]
      · rw [if_neg hother]
        exact hloop.written other ((reaches_iff.mp hreaches).resolve_left hother)
    · rw [Dict.get?_set, if_neg (fun hother => hnot (reaches_iff.mpr (Or.inl hother)))]
      exact hloop.kept other (fun hbelow => hnot (reaches_iff.mpr (Or.inr hbelow)))

/-- The visit of the root writes down what is below every node of the tree, and nothing else. -/
theorem get?_visit (tree : IsLinkTree source target root links) (node : N) (found : Finset N) :
    (visit source target links marked (links.length + 1) root ∅).2.get? node = some found
      ↔ Reaches source target links root node
        ∧ found = markedBelow source target links marked node := by
  obtain ⟨-, hwrites⟩ := visit_spec tree (links.length + 1) .start (by omega) ∅
  by_cases hreaches : Reaches source target links root node
  · rw [hwrites.written node hreaches, Option.some.injEq]
    exact ⟨fun h => ⟨hreaches, h.symm⟩, fun h => h.2.symm⟩
  · rw [hwrites.kept node hreaches]
    simp [hreaches]

end Mocop
