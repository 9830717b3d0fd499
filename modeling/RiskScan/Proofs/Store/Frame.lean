import RiskScan.Store.Operation
/-!
# What the steps of an operation leave alone

Every operation is made of a few steps: a node is created, a tree is begun, a node is enrolled in
it, a child is linked to its parent, a field of one node is changed, a revision moves on. For each
step it is said here what a node and a tree look like afterwards. Registering is the only operation
that takes a number of steps not known in advance; what each of its steps preserves, it preserves.
-/

namespace RiskScan.Store

variable {store : Store}

theorem modifyNode_keeps {β : Type} (part : Node → β) {f : Node → Node}
    (hf : ∀ node, part (f node) = part node) (store : Store) (id other : NodeId) :
    part ((store.modifyNode id f).node other) = part (store.node other) := by
  rw [node_modifyNode]
  split
  · rename_i hsame
    rw [hf, hsame.1]
  · rfl

theorem modifyTree_keeps {β : Type} (part : Tree → β) {f : Tree → Tree}
    (hf : ∀ tree, part (f tree) = part tree) (store : Store) (tree other : TreeId) :
    part ((store.modifyTree tree f).tree other) = part (store.tree other) := by
  rw [tree_modifyTree]
  split
  · rename_i hsame
    rw [hf, hsame.1]
  · rfl

@[simp] theorem treeCount_modifyTree (store : Store) (tree : TreeId) (f : Tree → Tree) :
    (store.modifyTree tree f).trees.size = store.trees.size := by
  simp [modifyTree]

@[simp] theorem treeCount_modifyNode (store : Store) (id : NodeId) (f : Node → Node) :
    (store.modifyNode id f).trees.size = store.trees.size := rfl

theorem tree_of_size_le {tree : TreeId} (h : store.trees.size ≤ tree) :
    store.tree tree = default := by
  simp [Store.tree, Array.getD, Nat.not_lt.mpr h]

/-- A node that has not been made belongs to no tree. -/
theorem lt_size_of_membership {id : NodeId} {home : Membership}
    (h : (store.node id).membership = some home) : id < store.nodes.size := by
  refine Nat.lt_of_not_le fun hge => ?_
  rw [node_of_size_le hge] at h
  exact Option.some_ne_none home h.symm

theorem tree?_of_membership {id : NodeId} {home : Membership}
    (h : (store.node id).membership = some home) : (store.node id).tree? = some home.tree := by
  rw [Node.tree?, h, Option.map_some]

theorem tree?_of_detached {id : NodeId} (h : (store.node id).membership = none) :
    (store.node id).tree? = none := by
  rw [Node.tree?, h, Option.map_none]

theorem ne_of_detached {id other : NodeId} {home : Membership}
    (hid : (store.node id).membership = none) (hother : (store.node other).membership = some home) :
    other ≠ id := by
  rintro rfl
  rw [hid] at hother
  cases hother

/-- Creating a node keeps what it has in common with nodes that have not been made. -/
theorem create_keeps {β : Type} (part : Node → β) {node : Node} (hpart : part node = part default)
    (id : NodeId) : part ((store.create node).2.node id) = part (store.node id) := by
  rw [node_create]
  split
  · rename_i hnew
    rw [hpart, node_of_size_le (Nat.le_of_eq hnew.symm)]
  · rfl

theorem lt_treeCount_of_mem {tree : TreeId} {slot : Nat} {id : NodeId}
    (h : (store.tree tree).nodes[slot]? = some id) : tree < store.trees.size := by
  refine Nat.lt_of_not_le fun hge => ?_
  rw [tree_of_size_le hge] at h
  exact Option.some_ne_none id h.symm

/-! ### Enrolling -/

theorem node_enrol (store : Store) (tree : TreeId) (id other : NodeId) :
    (store.enrol tree id).node other =
      if id = other ∧ id < store.nodes.size then
        { store.node id with membership := some ⟨tree, (store.tree tree).nodes.size⟩ }
      else store.node other := by
  rw [enrol, node_modifyTree, node_modifyNode]

theorem tree_enrol (store : Store) (tree other : TreeId) (id : NodeId) :
    (store.enrol tree id).tree other =
      if tree = other ∧ tree < store.trees.size then
        { store.tree tree with nodes := (store.tree tree).nodes.push id }
      else store.tree other := by
  rw [enrol, tree_modifyTree]
  rfl

@[simp] theorem treeCount_enrol (store : Store) (tree : TreeId) (id : NodeId) :
    (store.enrol tree id).trees.size = store.trees.size := by
  simp [enrol]

theorem enrol_keeps {β : Type} (part : Node → β)
    (hpart : ∀ node membership, part { node with membership := membership } = part node)
    (store : Store) (tree : TreeId) (id other : NodeId) :
    part ((store.enrol tree id).node other) = part (store.node other) := by
  rw [enrol, node_modifyTree]
  exact modifyNode_keeps part (fun node => hpart node _) store id other

@[simp] theorem children_enrol (store : Store) (tree : TreeId) (id other : NodeId) :
    ((store.enrol tree id).node other).children = (store.node other).children :=
  enrol_keeps Node.children (fun _ _ => rfl) store tree id other

@[simp] theorem hasParent_enrol (store : Store) (tree : TreeId) (id other : NodeId) :
    ((store.enrol tree id).node other).hasParent = (store.node other).hasParent :=
  enrol_keeps Node.hasParent (fun _ _ => rfl) store tree id other

@[simp] theorem parentSlot_enrol (store : Store) (tree : TreeId) (id other : NodeId) :
    ((store.enrol tree id).node other).parentSlot = (store.node other).parentSlot :=
  enrol_keeps Node.parentSlot (fun _ _ => rfl) store tree id other

theorem membership_enrol (store : Store) (tree : TreeId) {id : NodeId} (other : NodeId)
    (hid : id < store.nodes.size) :
    ((store.enrol tree id).node other).membership =
      if other = id then some ⟨tree, (store.tree tree).nodes.size⟩
      else (store.node other).membership := by
  rw [node_enrol]
  by_cases hother : other = id
  · subst hother
    simp [hid]
  · simp [hother, Ne.symm hother]

@[simp] theorem root_enrol (store : Store) (tree other : TreeId) (id : NodeId) :
    ((store.enrol tree id).tree other).root = (store.tree other).root := by
  rw [tree_enrol]
  split
  · rename_i hsame
    rw [hsame.1]
  · rfl

@[simp] theorem tree_setParentSlot (store : Store) (id : NodeId) (slot : Nat) (tree : TreeId) :
    (store.setParentSlot id slot).tree tree = store.tree tree := rfl

theorem setParentSlot_keeps {β : Type} (part : Node → β)
    (hpart : ∀ node slot, part { node with parentSlot := slot } = part node)
    (store : Store) (id other : NodeId) (slot : Nat) :
    part ((store.setParentSlot id slot).node other) = part (store.node other) :=
  modifyNode_keeps part (fun node => hpart node _) store id other

@[simp] theorem membership_setParentSlot (store : Store) (id other : NodeId) (slot : Nat) :
    ((store.setParentSlot id slot).node other).membership = (store.node other).membership :=
  setParentSlot_keeps Node.membership (fun _ _ => rfl) store id other slot

@[simp] theorem children_setParentSlot (store : Store) (id other : NodeId) (slot : Nat) :
    ((store.setParentSlot id slot).node other).children = (store.node other).children :=
  setParentSlot_keeps Node.children (fun _ _ => rfl) store id other slot

@[simp] theorem hasParent_setParentSlot (store : Store) (id other : NodeId) (slot : Nat) :
    ((store.setParentSlot id slot).node other).hasParent = (store.node other).hasParent :=
  setParentSlot_keeps Node.hasParent (fun _ _ => rfl) store id other slot

theorem parentSlot_setParentSlot (store : Store) {id : NodeId} (other : NodeId) (slot : Nat)
    (hid : id < store.nodes.size) :
    ((store.setParentSlot id slot).node other).parentSlot =
      if other = id then some slot else (store.node other).parentSlot := by
  rw [setParentSlot, node_modifyNode]
  by_cases hother : other = id
  · subst hother
    simp [hid]
  · simp [hother, Ne.symm hother]

@[simp] theorem node_touch (store : Store) (tree : TreeId) (id : NodeId) :
    (store.touch tree).node id = store.node id := rfl

@[simp] theorem size_touch (store : Store) (tree : TreeId) :
    (store.touch tree).nodes.size = store.nodes.size := rfl

@[simp] theorem treeCount_touch (store : Store) (tree : TreeId) :
    (store.touch tree).trees.size = store.trees.size := by
  simp [touch]

theorem touch_keeps {β : Type} (part : Tree → β)
    (hpart : ∀ tree revision, part { tree with revision := revision } = part tree)
    (store : Store) (tree other : TreeId) :
    part ((store.touch tree).tree other) = part (store.tree other) :=
  modifyTree_keeps part (fun tree => hpart tree _) store tree other

/-! ### Planting and linking -/

def begin (store : Store) (root : NodeId) : Store :=
  { store with trees := store.trees.push { root := root } }

@[simp] theorem size_begin (store : Store) (root : NodeId) :
    (store.begin root).nodes.size = store.nodes.size := rfl

@[simp] theorem treeCount_begin (store : Store) (root : NodeId) :
    (store.begin root).trees.size = store.trees.size + 1 := by
  simp [begin]

theorem tree_begin (store : Store) (root : NodeId) (tree : TreeId) :
    (store.begin root).tree tree =
      if tree = store.trees.size then { root := root } else store.tree tree := by
  simp only [begin, Store.tree, Array.getD, Array.size_push, Array.getInternal_eq_getElem,
    Array.getElem_push]
  split <;> split <;> grind

def link (store : Store) (parent child : NodeId) : Store :=
  (store.modifyNode parent fun node =>
    { node with children := node.children ++ [child] }).modifyNode child fun node =>
      { node with hasParent := true }

@[simp] theorem size_link (store : Store) (parent child : NodeId) :
    (store.link parent child).nodes.size = store.nodes.size := by
  simp [link]

@[simp] theorem tree_link (store : Store) (parent child : NodeId) (tree : TreeId) :
    (store.link parent child).tree tree = store.tree tree := rfl

theorem link_keeps {β : Type} (part : Node → β)
    (hpart : ∀ node children, part { node with children := children } = part node)
    (hflag : ∀ node flag, part { node with hasParent := flag } = part node)
    (store : Store) (parent child other : NodeId) :
    part ((store.link parent child).node other) = part (store.node other) := by
  rw [link, modifyNode_keeps part (fun node => hflag node _)]
  exact modifyNode_keeps part (fun node => hpart node _) store parent other

@[simp] theorem membership_link (store : Store) (parent child other : NodeId) :
    ((store.link parent child).node other).membership = (store.node other).membership :=
  link_keeps Node.membership (fun _ _ => rfl) (fun _ _ => rfl) store parent child other

theorem children_link (store : Store) {parent : NodeId} (child other : NodeId)
    (hparent : parent < store.nodes.size) :
    ((store.link parent child).node other).children =
      if other = parent then (store.node other).children ++ [child]
      else (store.node other).children := by
  have hflag := modifyNode_keeps Node.children (f := fun node => { node with hasParent := true })
    (fun _ => rfl)
  rw [link, hflag, node_modifyNode]
  by_cases hother : other = parent
  · subst hother
    simp [hparent]
  · simp [hother, Ne.symm hother]

theorem hasParent_link (store : Store) {parent child : NodeId} (other : NodeId)
    (hchild : child < store.nodes.size) :
    ((store.link parent child).node other).hasParent =
      (decide (other = child) || (store.node other).hasParent) := by
  rw [link, node_modifyNode]
  by_cases hother : other = child
  · subst hother
    simp [hchild]
  · have hchildren := modifyNode_keeps Node.hasParent
      (f := fun node => { node with children := node.children ++ [child] }) (fun _ => rfl)
    rw [if_neg fun hsame => hother hsame.1.symm, hchildren]
    simp [hother]

theorem after_plant (store : Store) (root : NodeId) :
    (plant root).after store =
      if (store.node root).hasParent ∨ (store.node root).membership.isSome then store
      else (register store.trees.size root).after (store.begin root) := by
  unfold StoreM.after plant begin
  simp only [Bool.or_eq_true]
  by_cases htaken : (store.node root).hasParent = true ∨ (store.node root).membership.isSome = true
  · simp only [if_pos htaken]
  · simp only [if_neg htaken]
    cases register store.trees.size root
      { store with trees := store.trees.push { root := root } } <;> rfl

theorem after_addChild (store : Store) (parent child : NodeId) :
    (addChild parent child).after store =
      match store.childError? parent child with
      | some _ => store
      | none =>
        match (store.node parent).membership with
        | none => store.link parent child
        | some home =>
          match register home.tree child (store.link parent child) with
          | .error _ after => after
          | .ok () after => after.setParentSlot child home.slot := by
  unfold StoreM.after addChild link
  cases store.childError? parent child with
  | some error => rfl
  | none =>
    cases (store.node parent).membership with
    | none => rfl
    | some home =>
      dsimp only
      split <;> rename_i hresult <;> split at hresult <;> simp_all

/-- Who may become a child is another node without a parent, and the root of no tree. -/
theorem free_of_childError? {parent child : NodeId} (h : store.childError? parent child = none) :
    child ≠ parent ∧ (store.node child).hasParent = false ∧
      ∀ tree, (store.node child).tree? = some tree → (store.tree tree).root ≠ child := by
  unfold childError? at h
  dsimp only at h
  split at h
  · cases h
  · rename_i hne
    split at h
    · cases h
    · rename_i halone
      refine ⟨hne, Bool.eq_false_iff.mpr halone, ?_⟩
      intro tree htree hroot
      rw [htree] at h
      simp [hroot] at h

/-! ### Fields of one node -/

def depend (store : Store) (id : NodeId) (slot : Nat) (tree : TreeId) : Store :=
  (store.modifyNode id fun node =>
    { node with dependencies := insertSlot slot node.dependencies }).touch tree

/-- Declaring a dependency enters the slot of its target, if both nodes belong to one tree. -/
theorem after_addDependency (store : Store) (id target : NodeId) :
    (addDependency id target).after store = store ∨
      ∃ home other, (store.node id).membership = some home ∧
        (store.node target).membership = some other ∧ home.tree = other.tree ∧
        (addDependency id target).after store = store.depend id other.slot home.tree := by
  unfold StoreM.after addDependency depend
  cases hid : (store.node id).membership with
  | none => exact Or.inl rfl
  | some home =>
    cases htarget : (store.node target).membership with
    | none => exact Or.inl rfl
    | some other =>
      by_cases htree : home.tree = other.tree
      · refine Or.inr ⟨home, other, rfl, rfl, htree, ?_⟩
        simp only [if_pos htree]
      · refine Or.inl ?_
        simp only [if_neg htree]

theorem depend_keeps {β : Type} (part : Node → β)
    (hpart : ∀ node slots, part { node with dependencies := slots } = part node)
    (store : Store) (id other : NodeId) (slot : Nat) (tree : TreeId) :
    part ((store.depend id slot tree).node other) = part (store.node other) :=
  modifyNode_keeps part (fun node => hpart node _) store id other

theorem depend_keepsTree {β : Type} (part : Tree → β)
    (hpart : ∀ tree revision, part { tree with revision := revision } = part tree)
    (store : Store) (id : NodeId) (slot : Nat) (tree other : TreeId) :
    part ((store.depend id slot tree).tree other) = part (store.tree other) :=
  touch_keeps part hpart _ tree other

@[simp] theorem size_depend (store : Store) (id : NodeId) (slot : Nat) (tree : TreeId) :
    (store.depend id slot tree).nodes.size = store.nodes.size := by
  simp [depend]

theorem dependencies_depend (store : Store) {id : NodeId} (other : NodeId) (slot : Nat)
    (tree : TreeId) (hid : id < store.nodes.size) :
    ((store.depend id slot tree).node other).dependencies =
      if other = id then insertSlot slot (store.node id).dependencies
      else (store.node other).dependencies := by
  rw [depend, node_touch, node_modifyNode]
  by_cases hother : other = id
  · subst hother
    simp [hid]
  · simp [hother, Ne.symm hother]

theorem setSeverity_eq (store : Store) (id : NodeId) (severity : Severity) :
    store.setSeverity id severity =
      match (store.node id).tree? with
      | none => store.modifyNode id fun node => { node with severity := severity }
      | some tree =>
        (store.modifyNode id fun node => { node with severity := severity }).touch tree := rfl

theorem setSeverity_keeps {β : Type} (part : Node → β)
    (hpart : ∀ node severity, part { node with severity := severity } = part node)
    (store : Store) (id other : NodeId) (severity : Severity) :
    part ((store.setSeverity id severity).node other) = part (store.node other) := by
  rw [setSeverity_eq]
  split
  · exact modifyNode_keeps part (fun node => hpart node _) store id other
  · exact modifyNode_keeps part (fun node => hpart node _) store id other

theorem remember_of_dependencies_nil {id : NodeId} (severity : Severity)
    (hnone : (store.node id).dependencies = []) : store.remember id severity = store := by
  unfold remember
  simp only [hnone, List.isEmpty_nil, if_true]
  split <;> rfl

theorem remember_of_detached {id : NodeId} (severity : Severity)
    (hid : (store.node id).membership = none) : store.remember id severity = store := by
  unfold remember
  simp only [hid]

theorem node_remember_of_membership {id : NodeId} {home : Membership} (other : NodeId)
    (severity : Severity) (hid : (store.node id).membership = some home)
    (hsome : (store.node id).dependencies ≠ []) :
    (store.remember id severity).node other =
      if other = id then
        { store.node id with memo := some ⟨(store.tree home.tree).revision, severity⟩ }
      else store.node other := by
  have hdependencies : (store.node id).dependencies.isEmpty = false := by simpa using hsome
  unfold remember
  simp only [hid, hdependencies]
  rw [if_neg Bool.false_ne_true, node_modifyNode]
  by_cases hother : other = id
  · subst hother
    simp [lt_size_of_membership hid, hid]
  · simp [hother, Ne.symm hother]

theorem remember_keeps {β : Type} (part : Node → β)
    (hpart : ∀ node memo, part { node with memo := memo } = part node)
    (store : Store) (id other : NodeId) (severity : Severity) :
    part ((store.remember id severity).node other) = part (store.node other) := by
  obtain ⟨memo, hnode⟩ := node_remember store id other severity
  rw [hnode, hpart]

@[simp] theorem tree_remember (store : Store) (id : NodeId) (severity : Severity) (tree : TreeId) :
    (store.remember id severity).tree tree = store.tree tree := by
  unfold remember
  dsimp only
  split
  · rfl
  · split <;> rfl

@[simp] theorem size_remember (store : Store) (id : NodeId) (severity : Severity) :
    (store.remember id severity).nodes.size = store.nodes.size := by
  unfold remember
  dsimp only
  split
  · rfl
  · split <;> simp

@[simp] theorem treeCount_remember (store : Store) (id : NodeId) (severity : Severity) :
    (store.remember id severity).trees.size = store.trees.size := by
  unfold remember
  dsimp only
  split
  · rfl
  · split <;> rfl

/-! ### Registering -/

/-- What holds of a store and is kept by enrolling detached nodes and by naming parents holds after
registering a node, whether or not that fails. -/
theorem register_induction (tree : TreeId) (id : NodeId) {P : Store → Prop}
    (hchild : ∀ {store : Store} {id child : NodeId}, P store →
      child ∈ (store.node id).children → child < store.nodes.size)
    (henrol : ∀ {store : Store} {id : NodeId}, P store → id < store.nodes.size →
      (store.node id).membership = none → P (store.enrol tree id))
    (hname : ∀ {store : Store} {child : NodeId} {slot : Nat}, P store →
      P (store.setParentSlot child slot))
    (hstore : P store) (hid : id < store.nodes.size) :
    P ((register tree id).after store) := by
  -- The store after `fuel` levels; the children are adopted one by one, each by the levels below.
  suffices hwithin : ∀ (fuel : Nat) (id : NodeId) (store : Store), P store → id < store.nodes.size →
      P ((registerWithin tree fuel id).after store) from hwithin _ id store hstore hid
  intro fuel
  induction fuel with
  | zero => exact fun _ _ hstore _ => hstore
  | succ fuel ih =>
    have hadopt : ∀ (children : List NodeId) (slot : Nat) (store : Store), P store →
        (∀ child ∈ children, child < store.nodes.size) →
        P ((adopt (registerWithin tree fuel) slot children).after store) := by
      intro children slot
      induction children with
      | nil => exact fun _ hstore _ => hstore
      | cons child children ihchildren =>
        intro store hstore hknown
        have hfirst := ih child store hstore (hknown child List.mem_cons_self)
        have hsize := size_after_registerWithin tree fuel child store
        unfold StoreM.after at hfirst hsize ihchildren ⊢
        unfold adopt
        cases hresult : registerWithin tree fuel child store with
        | error error after =>
          rw [hresult] at hfirst
          exact hfirst
        | ok _ after =>
          rw [hresult] at hfirst hsize
          refine ihchildren _ (hname hfirst) ?_
          intro other hother
          rw [size_setParentSlot, hsize]
          exact hknown other (List.mem_cons_of_mem child hother)
    intro id store hstore hid
    unfold StoreM.after registerWithin
    dsimp only
    cases hmembership : (store.node id).membership with
    | some home =>
      by_cases heq : home.tree = tree <;> simpa [Node.tree?, hmembership, heq] using hstore
    | none =>
      simp only [Node.tree?, hmembership, Option.map_none]
      refine hadopt _ _ _ (henrol hstore hid hmembership) ?_
      intro child hmem
      rw [size_enrol]
      exact hchild hstore hmem

/-- Where every child exists, which is so ever after, what holds of a store only has to be kept by
the two changes that registering makes. -/
theorem register_keeps (tree : TreeId) (id : NodeId) {P : Store → Prop}
    (henrol : ∀ {store : Store} (id : NodeId), P store → P (store.enrol tree id))
    (hname : ∀ {store : Store} (child : NodeId) (slot : Nat), P store →
      P (store.setParentSlot child slot))
    (hknown : ∀ {id child : NodeId}, child ∈ (store.node id).children → child < store.nodes.size)
    (hstore : P store) (hid : id < store.nodes.size) : P ((register tree id).after store) := by
  have hend := register_induction tree id
    (P := fun now =>
      (∀ {id child}, child ∈ (now.node id).children → child < now.nodes.size) ∧ P now)
    (fun hnow => hnow.1) ?_ ?_ ⟨hknown, hstore⟩ hid
  · exact hend.2
  · rintro now candidate ⟨hknown, hnow⟩ - -
    refine ⟨fun hchild => ?_, henrol candidate hnow⟩
    rw [children_enrol] at hchild
    rw [size_enrol]
    exact hknown hchild
  · rintro now child slot ⟨hknown, hnow⟩
    refine ⟨fun hchild => ?_, hname child slot hnow⟩
    rw [children_setParentSlot] at hchild
    rw [size_setParentSlot]
    exact hknown hchild

/-! ### Shape -/

/-- Two stores that differ at most in what nodes say of themselves, in dependencies and in
revisions. -/
structure SameShape (before after : Store) : Prop where
  size : after.nodes.size = before.nodes.size
  treeCount : after.trees.size = before.trees.size
  children (id : NodeId) : (after.node id).children = (before.node id).children
  hasParent (id : NodeId) : (after.node id).hasParent = (before.node id).hasParent
  membership (id : NodeId) : (after.node id).membership = (before.node id).membership
  parentSlot (id : NodeId) : (after.node id).parentSlot = (before.node id).parentSlot
  nodes (tree : TreeId) : (after.tree tree).nodes = (before.tree tree).nodes
  root (tree : TreeId) : (after.tree tree).root = (before.tree tree).root

namespace SameShape

theorem refl (store : Store) : SameShape store store :=
  ⟨rfl, rfl, fun _ => rfl, fun _ => rfl, fun _ => rfl, fun _ => rfl, fun _ => rfl, fun _ => rfl⟩

theorem modifyNode (store : Store) (id : NodeId) {f : Node → Node}
    (hchildren : ∀ node, (f node).children = node.children)
    (hhasParent : ∀ node, (f node).hasParent = node.hasParent)
    (hmembership : ∀ node, (f node).membership = node.membership)
    (hparentSlot : ∀ node, (f node).parentSlot = node.parentSlot) :
    SameShape store (store.modifyNode id f) where
  size := size_modifyNode store id f
  treeCount := rfl
  children := modifyNode_keeps Node.children hchildren store id
  hasParent := modifyNode_keeps Node.hasParent hhasParent store id
  membership := modifyNode_keeps Node.membership hmembership store id
  parentSlot := modifyNode_keeps Node.parentSlot hparentSlot store id
  nodes _ := rfl
  root _ := rfl

theorem touch (store : Store) (tree : TreeId) : SameShape store (store.touch tree) where
  size := rfl
  treeCount := treeCount_touch store tree
  children _ := rfl
  hasParent _ := rfl
  membership _ := rfl
  parentSlot _ := rfl
  nodes := touch_keeps Tree.nodes (fun _ _ => rfl) store tree
  root := touch_keeps Tree.root (fun _ _ => rfl) store tree

theorem trans {first second third : Store} (hleft : SameShape first second)
    (hright : SameShape second third) : SameShape first third where
  size := hright.size.trans hleft.size
  treeCount := hright.treeCount.trans hleft.treeCount
  children id := (hright.children id).trans (hleft.children id)
  hasParent id := (hright.hasParent id).trans (hleft.hasParent id)
  membership id := (hright.membership id).trans (hleft.membership id)
  parentSlot id := (hright.parentSlot id).trans (hleft.parentSlot id)
  nodes tree := (hright.nodes tree).trans (hleft.nodes tree)
  root tree := (hright.root tree).trans (hleft.root tree)

theorem depend (store : Store) (id : NodeId) (slot : Nat) (tree : TreeId) :
    SameShape store (store.depend id slot tree) := by
  have hchange : SameShape store
      (store.modifyNode id fun node =>
        { node with dependencies := insertSlot slot node.dependencies }) :=
    modifyNode store id (fun _ => rfl) (fun _ => rfl) (fun _ => rfl) (fun _ => rfl)
  exact hchange.trans (touch _ tree)

theorem setSeverity (store : Store) (id : NodeId) (severity : Severity) :
    SameShape store (store.setSeverity id severity) := by
  have hchange : SameShape store
      (store.modifyNode id fun node => { node with severity := severity }) :=
    modifyNode store id (fun _ => rfl) (fun _ => rfl) (fun _ => rfl) (fun _ => rfl)
  rw [setSeverity_eq]
  split
  · exact hchange
  · exact hchange.trans (touch _ _)

theorem remember (store : Store) (id : NodeId) (severity : Severity) :
    SameShape store (store.remember id severity) := by
  unfold Store.remember
  dsimp only
  split
  · exact refl store
  · split
    · exact refl store
    · exact modifyNode store id (fun _ => rfl) (fun _ => rfl) (fun _ => rfl) (fun _ => rfl)

end SameShape

end RiskScan.Store

/-! ### Operations -/

namespace RiskScan.Operation

/-- An operation on one node either fails and changes nothing or does what it says. -/
theorem after_ofNode (operation : Store → Except NodeError Store) (store : Store) :
    (match ofNode operation store with
      | .ok _ store => store
      | .error _ store => store) = store ∨
    ∃ result, operation store = .ok result ∧
      (match ofNode operation store with
        | .ok _ store => store
        | .error _ store => store) = result := by
  unfold ofNode
  cases operation store with
  | error error => exact Or.inl rfl
  | ok result => exact Or.inr ⟨result, rfl, rfl⟩

/-- What succeeds behind a change of its value and of its errors has succeeded. -/
theorem exists_of_mapError_map_eq_ok {ε ε' α β : Type} {result : Except ε α} {f : α → β}
    {g : ε → ε'} {b : β} (h : (result.map f).mapError g = .ok b) : ∃ a, result = .ok a ∧
    f a = b := by
  cases result with
  | error error => cases h
  | ok a => exact ⟨a, rfl, Except.ok.inj h⟩

theorem after_create (draft : Draft) (store : Store) :
    (create draft).after store = store ∨
      ∃ node, draft.node = .ok node ∧ (create draft).after store = (store.create node).2 := by
  rcases after_ofNode (fun store => draft.node.map fun node => (store.create node).2) store with
    hfail | ⟨result, hresult, hafter⟩
  · exact Or.inl hfail
  · cases hnode : draft.node with
    | error error =>
      rw [hnode] at hresult
      cases hresult
    | ok node =>
      rw [hnode] at hresult
      cases hresult
      exact Or.inr ⟨node, rfl, hafter⟩

theorem after_ofTree {α : Type} (operation : StoreM α) (store : Store) :
    (match ofTree operation store with
      | .ok _ store => store
      | .error _ store => store) = operation.after store := by
  unfold ofTree StoreM.after
  cases operation store <;> rfl

@[simp] theorem after_plant (root : NodeId) (store : Store) :
    (plant root).after store = (Store.plant root).after store :=
  after_ofTree (Store.plant root) store

@[simp] theorem after_register (tree : TreeId) (id : NodeId) (store : Store) :
    (register tree id).after store = (Store.register tree id).after store :=
  after_ofTree (Store.register tree id) store

@[simp] theorem after_addChild (parent child : NodeId) (store : Store) :
    (addChild parent child).after store = (Store.addChild parent child).after store :=
  after_ofTree (Store.addChild parent child) store

@[simp] theorem after_addDependency (id target : NodeId) (store : Store) :
    (addDependency id target).after store = (Store.addDependency id target).after store :=
  after_ofTree (Store.addDependency id target) store

@[simp] theorem after_compound (id : NodeId) (store : Store) :
    (compound id).after store = store.remember id (store.compoundNow id) := rfl

theorem after_setSeverity (id : NodeId) (value : Value) (store : Store) :
    (setSeverity id value).after store = store ∨
      ∃ severity, (setSeverity id value).after store = store.setSeverity id severity := by
  rcases after_ofNode (fun store =>
    ((Severity.parse value).map (store.setSeverity id)).mapError .severity) store with
    hfail | ⟨result, hresult, hafter⟩
  · exact Or.inl hfail
  · obtain ⟨severity, -, rfl⟩ := exists_of_mapError_map_eq_ok hresult
    exact Or.inr ⟨severity, hafter⟩

theorem after_setConfidence (id : NodeId) (value : Value) (store : Store) :
    (setConfidence id value).after store = store ∨
      ∃ confidence, (setConfidence id value).after store = store.setConfidence id confidence := by
  rcases after_ofNode (fun store =>
    ((Confidence.ofValue value).map (store.setConfidence id)).mapError .confidence) store with
    hfail | ⟨result, hresult, hafter⟩
  · exact Or.inl hfail
  · obtain ⟨confidence, -, rfl⟩ := exists_of_mapError_map_eq_ok hresult
    exact Or.inr ⟨confidence, hafter⟩

theorem after_bumpConfidence (id : NodeId) (delta : Value) (store : Store) :
    (bumpConfidence id delta).after store = store ∨
      ∃ confidence, (bumpConfidence id delta).after store = store.setConfidence id confidence := by
  rcases after_ofNode (fun store =>
    (store.bumpConfidence id delta).mapError .confidence) store with
    hfail | ⟨result, hresult, hafter⟩
  · exact Or.inl hfail
  · obtain ⟨confidence, -, rfl⟩ := exists_of_mapError_map_eq_ok hresult
    exact Or.inr ⟨confidence, hafter⟩

/-- Whether an operation may create or register nodes, begin trees or link children. -/
def changesShape : Operation → Bool
  | create _ | plant _ | register _ _ | addChild _ _ => true
  | _ => false

/-- The other operations keep the shape of a store, and of them only a declared dependency changes
the dependencies of a node. -/
theorem sameShape_after {operation : Operation} (hshape : operation.changesShape = false)
    (store : Store) :
    Store.SameShape store (operation.after store) ∧
      ((∀ id, ((operation.after store).node id).dependencies = (store.node id).dependencies) ∨
        ∃ id target home other, (store.node id).membership = some home ∧
          (store.node target).membership = some other ∧ home.tree = other.tree ∧
          operation.after store = store.depend id other.slot home.tree) := by
  have hfield : ∀ (id : NodeId) (f : Node → Node), (∀ node, (f node).children = node.children) →
      (∀ node, (f node).hasParent = node.hasParent) →
      (∀ node, (f node).membership = node.membership) →
      (∀ node, (f node).parentSlot = node.parentSlot) →
      (∀ node, (f node).dependencies = node.dependencies) →
      Store.SameShape store (store.modifyNode id f) ∧
        ∀ other, ((store.modifyNode id f).node other).dependencies =
          (store.node other).dependencies :=
    fun id f hchildren hhasParent hmembership hparentSlot hdependencies =>
      ⟨.modifyNode store id hchildren hhasParent hmembership hparentSlot,
        Store.modifyNode_keeps Node.dependencies hdependencies store id⟩
  cases operation with
  | create | plant | register | addChild => cases hshape
  | addDependency id target =>
    rw [after_addDependency]
    rcases Store.after_addDependency store id target with
      hfail | ⟨home, other, hid, htarget, htree, hafter⟩
    · rw [hfail]
      exact ⟨.refl store, Or.inl fun _ => rfl⟩
    · rw [hafter]
      exact ⟨.depend store id _ _, Or.inr ⟨id, target, home, other, hid, htarget, htree, rfl⟩⟩
  | touch tree => exact ⟨.touch store tree, Or.inl fun _ => rfl⟩
  | setSeverity id value =>
    rcases after_setSeverity id value store with hfail | ⟨severity, hafter⟩
    · rw [hfail]
      exact ⟨.refl store, Or.inl fun _ => rfl⟩
    · rw [hafter]
      exact ⟨.setSeverity store id severity, Or.inl
        (Store.setSeverity_keeps Node.dependencies (fun _ _ => rfl) store id · severity)⟩
  | setConfidence id value =>
    rcases after_setConfidence id value store with hfail | ⟨confidence, hafter⟩
    · rw [hfail]
      exact ⟨.refl store, Or.inl fun _ => rfl⟩
    · rw [hafter]
      have hchange := hfield id (fun node => { node with confidence := confidence })
        (fun _ => rfl) (fun _ => rfl) (fun _ => rfl) (fun _ => rfl) (fun _ => rfl)
      exact ⟨hchange.1, Or.inl hchange.2⟩
  | bumpConfidence id delta =>
    rcases after_bumpConfidence id delta store with hfail | ⟨confidence, hafter⟩
    · rw [hfail]
      exact ⟨.refl store, Or.inl fun _ => rfl⟩
    · rw [hafter]
      have hchange := hfield id (fun node => { node with confidence := confidence })
        (fun _ => rfl) (fun _ => rfl) (fun _ => rfl) (fun _ => rfl) (fun _ => rfl)
      exact ⟨hchange.1, Or.inl hchange.2⟩
  | addMitigation id mitigation =>
    have hchange :=
      hfield id (fun node => { node with mitigations := node.mitigations ++ [mitigation] })
      (fun _ => rfl) (fun _ => rfl) (fun _ => rfl) (fun _ => rfl) (fun _ => rfl)
    exact ⟨hchange.1, Or.inl hchange.2⟩
  | setReasoning id reasoning =>
    have hchange := hfield id (fun node => { node with reasoning := reasoning })
      (fun _ => rfl) (fun _ => rfl) (fun _ => rfl) (fun _ => rfl) (fun _ => rfl)
    exact ⟨hchange.1, Or.inl hchange.2⟩
  | compound id =>
    rw [after_compound]
    exact ⟨.remember store id _, Or.inl
      (Store.remember_keeps Node.dependencies (fun _ _ => rfl) store id · _)⟩

end RiskScan.Operation
