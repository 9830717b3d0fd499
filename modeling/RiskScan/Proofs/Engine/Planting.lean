import RiskScan.Proofs.Engine.Growth
/-!
# Planting a trunk

A run begins with a trunk: a new tree whose root has the four branches under it. Planting it
succeeds in every store that ordinary operations lead to, and the branches are bare.
-/

namespace RiskScan

namespace Store

variable {store : Store} {node : Node}

/-- A store with a new node as the root of a new tree. -/
def sow (store : Store) (node : Node) : Store :=
  ((store.create node).2.begin store.nodes.size).enrol store.trees.size store.nodes.size

theorem node_sow (store : Store) (node : Node) (other : NodeId) :
    (store.sow node).node other =
      if other = store.nodes.size then { node with membership := some ⟨store.trees.size, 0⟩ }
      else store.node other := by
  have hsize : ((store.create node).2.begin store.nodes.size).nodes.size = store.nodes.size + 1 :=
    size_create store node
  have hnode : ∀ id, ((store.create node).2.begin store.nodes.size).node id =
      if id = store.nodes.size then node else store.node id := node_create store node
  have hbegun := tree_begin (store.create node).2 store.nodes.size store.trees.size
  rw [if_pos (show store.trees.size = (store.create node).2.trees.size from rfl)] at hbegun
  rw [sow, node_enrol, hsize, hnode, hnode, hbegun]
  by_cases hother : other = store.nodes.size
  · subst hother
    simp
  · simp [hother, Ne.symm hother]

theorem tree_sow (store : Store) (node : Node) :
    (store.sow node).tree store.trees.size =
      { root := store.nodes.size, nodes := #[store.nodes.size] } := by
  have hbegun := tree_begin (store.create node).2 store.nodes.size store.trees.size
  rw [if_pos (show store.trees.size = (store.create node).2.trees.size from rfl)] at hbegun
  have hcount : store.trees.size < ((store.create node).2.begin store.nodes.size).trees.size := by
    rw [treeCount_begin]
    exact Nat.lt_succ_self _
  rw [sow, tree_enrol, if_pos ⟨rfl, hcount⟩, hbegun]
  rfl

theorem plant_create (store : Store) (hfresh : node.Fresh) :
    plant store.nodes.size (store.create node).2 = .ok store.trees.size (store.sow node) := by
  have hnew : (store.create node).2.node store.nodes.size = node := by
    rw [node_create, if_pos rfl]
  have hnode : ((store.create node).2.begin store.nodes.size).node store.nodes.size = node := hnew
  have hregister := register_childless (store.create node).2.trees.size
    (show (((store.create node).2.begin store.nodes.size).node store.nodes.size).membership =
        none by
      rw [hnode, hfresh.membership])
    (show (((store.create node).2.begin store.nodes.size).node store.nodes.size).children = [] by
      rw [hnode, hfresh.children])
  unfold plant
  simp only [hnew, hfresh.hasParent, hfresh.membership]
  unfold begin at hregister
  rw [if_neg (by simp), hregister]
  rfl

theorem proceeds_sow (store : Store) (hfresh : node.Fresh) : Proceeds store (store.sow node) := by
  have hafter : (Operation.plant store.nodes.size).after (store.create node).2 =
      store.sow node := by
    rw [Operation.after_plant, StoreM.after, plant_create store hfresh]
  rw [← hafter]
  refine (proceeds_create store hfresh).step rfl (decide_eq_true ?_)
  rw [size_create]
  exact Nat.lt_succ_self _

end Store

open Store

namespace Engine

/-- A tree whose root has some nodes under it, in the slots that follow. -/
structure Bears (start : Store) (rootNode : Node) (ids : List NodeId) (nodes : List Node)
    (store : Store) :
    Prop where
  proceeds : start.Proceeds store
  root : (store.node start.nodes.size).membership = some ⟨start.trees.size, 0⟩
  rootOf : (store.tree start.trees.size).root = start.nodes.size
  marks : store.marks start.trees.size = (rootNode :: nodes).map Node.mark
  children : (store.node start.nodes.size).children = ids
  branch {place : Nat} {id : NodeId} : ids[place]? = some id →
    (store.node id).membership = some ⟨start.trees.size, place + 1⟩ ∧ (store.node id).children = []
  kind {place : Nat} {id : NodeId} : ids[place]? = some id →
    nodes[place]?.map Node.kind = some (store.node id).kind
  length : ids.length = nodes.length

variable {start store : Store} {rootNode node : Node} {ids : List NodeId} {nodes : List Node}

theorem Bears.sow (start : Store) (hfresh : rootNode.Fresh) :
    Bears start rootNode [] [] (start.sow rootNode) where
  proceeds := proceeds_sow start hfresh
  root := by rw [node_sow, if_pos rfl]
  rootOf := by rw [tree_sow]
  marks := by
    rw [Store.marks, tree_sow]
    simp only [List.map_cons, List.map_nil, node_sow, if_pos]
    rfl
  children := by rw [node_sow, if_pos rfl, hfresh.children]
  branch h := by cases h
  kind h := by cases h
  length := rfl

theorem Bears.attach (h : Bears start rootNode ids nodes store) (hsound : ArenaSound store)
    (hfresh : node.Fresh) : ∃ after, Analysis.attach start.nodes.size node store =
      .ok store.nodes.size after ∧
      Bears start rootNode (ids ++ [store.nodes.size]) (nodes ++ [node]) after := by
  have hlt := lt_size_of_membership h.root
  have hsize : (store.tree start.trees.size).nodes.size = ids.length + 1 := by
    rw [← length_marks, h.marks, List.length_map, List.length_cons, h.length]
  have hnode : ∀ {place : Nat} {id : NodeId}, ids[place]? = some id →
      (store.hang start.nodes.size ⟨start.trees.size, 0⟩ node).node id = store.node id := by
    intro place id hid
    obtain ⟨hmembership, -⟩ := h.branch hid
    have hne : id ≠ start.nodes.size := by
      rintro rfl
      rw [h.root] at hmembership
      cases hmembership
    rw [node_hang hlt, if_neg (Nat.ne_of_lt (lt_size_of_membership hmembership)), if_neg hne]
  refine ⟨_, Analysis.attach_eq h.root hfresh, ?_⟩
  constructor
  · exact h.proceeds.trans (proceeds_hang h.root hfresh)
  · rw [node_hang hlt, if_neg (Nat.ne_of_lt hlt), if_pos rfl]
    exact h.root
  · rw [tree_hang (hsound.tree_lt h.root), if_pos rfl]
    exact h.rootOf
  · have hmarks := marks_hang hsound h.root node
    rw [hmarks, h.marks]
    simp
  · rw [node_hang hlt, if_neg (Nat.ne_of_lt hlt), if_pos rfl, h.children]
  · intro place id hid
    rcases List.getElem?_concat_eq_some hid with ⟨-, hold⟩ | ⟨rfl, rfl⟩
    · rw [hnode hold]
      exact h.branch hold
    · rw [node_hang hlt, if_pos rfl, hsize]
      exact ⟨rfl, hfresh.children⟩
  · intro place id hid
    rcases List.getElem?_concat_eq_some hid with ⟨hplace, hold⟩ | ⟨rfl, rfl⟩
    · rw [hnode hold, List.getElem?_append_left (h.length ▸ hplace)]
      exact h.kind hold
    · rw [node_hang hlt, if_pos rfl, h.length, List.getElem?_concat_length]
      rfl
  · simp [h.length]

theorem rootNode_fresh : Engine.rootNode.Fresh :=
  ⟨rfl, rfl, rfl, rfl, rfl, rfl⟩

theorem branchNode_fresh (config : Config) (branch : Branch) : (branchNode config branch).Fresh :=
  ⟨rfl, rfl, rfl, rfl, rfl, rfl⟩

/-- What is marked in a bare tree. -/
def trunkMarks (config : Config) : Marks :=
  (Engine.rootNode :: Branch.all.map (branchNode config)).map Node.mark

theorem dependencies_of_mem_trunkMarks {config : Config} {mark : Mark}
    (h : mark ∈ trunkMarks config) :
    mark.dependencies = [] := by
  obtain ⟨node, hnode, rfl⟩ := List.mem_map.mp h
  rcases List.mem_cons.mp hnode with rfl | hnode
  · rfl
  · obtain ⟨branch, -, rfl⟩ := List.mem_map.mp hnode
    rfl

/-- The nodes under the root are the branches of a trunk, if there are as many. -/
theorem Bears.stands {branches : Branches} (h : Bears start rootNode branches.all nodes store)
    (hstart : OrdinarilyReachable start) (hroot : branches.root = start.nodes.size) :
    (⟨start.trees.size, branches⟩ : Trunk).Stands store ∧
      ∀ branch, (store.node (branches.get branch)).children = [] := by
  have hsound := (hstart.trans h.proceeds).arenaSound
  have hget : ∀ branch, branches.all[Branch.all.idxOf branch]? = some (branches.get branch) := by
    intro branch
    cases branch <;> rfl
  refine ⟨⟨hstart.trans h.proceeds, hsound.tree_lt h.root, h.rootOf.trans hroot.symm, ?_, ?_⟩, ?_⟩
  · exact fun branch => ⟨_, (h.branch (hget branch)).1⟩
  · intro first second heq
    have hfirst := (h.branch (hget first)).1
    rw [heq, (h.branch (hget second)).1, Option.some.injEq, Membership.mk.injEq] at hfirst
    have hplace : Branch.all.idxOf first = Branch.all.idxOf second := by omega
    revert hplace
    cases first <;> cases second <;> decide
  · exact fun branch => (h.branch (hget branch)).2

/-- The nodes under the root are the branches, each in its place. -/
theorem exists_bears (config : Config) (hstart : OrdinarilyReachable start) : ∃ branches planted,
    buildTree config start = .ok ⟨start.trees.size, branches⟩ planted ∧
    branches.root = start.nodes.size ∧
      Bears start Engine.rootNode branches.all (Branch.all.map (branchNode config)) planted := by
  have hattach : ∀ {ids nodes store} (branch : Branch),
      Bears start Engine.rootNode ids nodes store →
      ∃ id after, attachBranch config start.nodes.size branch store = .ok id after ∧
        Bears start Engine.rootNode (ids ++ [id]) (nodes ++ [branchNode config branch]) after := by
    intro ids nodes store branch h
    obtain ⟨after, hafter⟩ :=
      h.attach (hstart.trans h.proceeds).arenaSound (branchNode_fresh config branch)
    exact ⟨_, after, hafter⟩
  obtain ⟨code, first, hfirst, hfirstBears⟩ := hattach .codeExecution (.sow start rootNode_fresh)
  obtain ⟨state, second, hsecond, hsecondBears⟩ := hattach .stateManagement hfirstBears
  obtain ⟨async, third, hthird, hthirdBears⟩ := hattach .asyncConcurrency hsecondBears
  obtain ⟨data, planted, hplanted, hbears⟩ := hattach .dataFlow hthirdBears
  refine ⟨⟨start.nodes.size, code, state, async, data⟩, planted, ?_, rfl, hbears⟩
  have hcreate : (modifyGet fun store => store.create Engine.rootNode : Analysis NodeId) start =
      .ok start.nodes.size (start.create Engine.rootNode).2 := rfl
  have hplant : Analysis.ofStore (plant start.nodes.size) (start.create Engine.rootNode).2 =
      .ok start.trees.size (start.sow Engine.rootNode) := by
    rw [Analysis.ofStore, plant_create start rootNode_fresh]
  unfold buildTree
  rw [Analysis.bind_of_ok hcreate, Analysis.bind_of_ok hplant, Analysis.bind_of_ok hfirst,
    Analysis.bind_of_ok hsecond, Analysis.bind_of_ok hthird, Analysis.bind_of_ok hplanted]
  rfl

/-- Planting a trunk succeeds, and leaves it bare. -/
theorem buildTree_eq (config : Config) (hstart : OrdinarilyReachable start) :
    ∃ trunk planted, buildTree config start = .ok trunk planted ∧ trunk.Stands planted ∧
      (∀ branch, (planted.node (trunk.branches.get branch)).children = []) ∧
      planted.marks trunk.tree = trunkMarks config := by
  obtain ⟨branches, planted, hbuild, hroot, hbears⟩ := exists_bears config hstart
  obtain ⟨hstands, hbare⟩ := hbears.stands hstart hroot
  exact ⟨_, planted, hbuild, hstands, hbare, hbears.marks⟩

end Engine

end RiskScan
