import Mathlib.Data.List.Nodup
import SimpleC.Derivation.Diagram
import SimpleC.Proofs.DerivationTree.Basic

/-!
# Addresses of nodes

The address of a node says, level by level, which child to go on with from the root. Nodes are
told apart by their addresses, since a tree may have the same node at several places. A walk
comes to the addresses in a certain order; the number of a node is its place in that order, and
can be computed from the sizes of the trees that the walk passes before it.
-/

namespace SimpleC

namespace Node

/-- The node at an address. -/
def at? (tree : Node) : List Nat → Option Node
  | [] => some tree
  | index :: rest => tree.children[index]?.bind fun child => child.at? rest

mutual

/-- The addresses of the nodes of a tree, in the order of a walk. -/
def addresses (node : Node) : List (List Nat) :=
  match node with
  | ⟨_, _, _, _, children⟩ => [] :: addressesFrom 0 children

/-- The addresses of the nodes of trees that are the children of a node from the given index on. -/
def addressesFrom (index : Nat) (nodes : List Node) : List (List Nat) :=
  match nodes with
  | [] => []
  | node :: rest => (addresses node).map (index :: ·) ++ addressesFrom (index + 1) rest

end

/-- How many nodes a walk comes to before the node at an address. -/
def numberAt (tree : Node) : List Nat → Nat
  | [] => 0
  | index :: rest =>
      sizeAll (tree.children.take index) + 1 +
        (tree.children[index]?.map fun child => child.numberAt rest).getD 0

/-- In the order of a walk, the second node is a child of the first one. -/
def IsChild (tree : Node) (parent child : Nat) : Prop :=
  ∃ address index, tree.addresses[parent]? = some address ∧
    tree.addresses[child]? = some (address ++ [index])

/-- In the order of a walk, the second node is the first one or below it. -/
def IsBelow (tree : Node) (top number : Nat) : Prop :=
  ∃ address under, tree.addresses[top]? = some address ∧
    tree.addresses[number]? = some (address ++ under)

section Addresses

variable {tree node child : Node} {address under : List Nat} {index number : Nat}

theorem addresses_eq (tree : Node) : tree.addresses = [] :: addressesFrom 0 tree.children := by
  cases tree
  rfl

theorem addressesFrom_append (index : Nat) (left right : List Node) :
    addressesFrom index (left ++ right) =
      addressesFrom index left ++ addressesFrom (index + left.length) right := by
  induction left generalizing index with
  | nil =>
      rfl
  | cons node rest ih =>
      rw [List.cons_append, addressesFrom, addressesFrom, ih, List.append_assoc, List.length_cons,
        Nat.add_assoc, Nat.add_comm 1]

theorem size_eq (tree : Node) : tree.size = sizeAll tree.children + 1 := by
  cases tree
  rfl

theorem length_walk (tree : Node) : tree.walk.length = tree.size := by
  induction tree using induction with
  | h tree ih =>
      rw [walk_eq, size_eq, List.length_cons]
      congr 1
      generalize tree.children = nodes at ih
      induction nodes with
      | nil =>
          rfl
      | cons node rest ihrest =>
          rw [List.forall_mem_cons] at ih
          rw [List.flatMap_cons, List.length_append, sizeAll, ih.1, ihrest ih.2]

theorem at?_append (tree : Node) (address under : List Nat) :
    tree.at? (address ++ under) = (tree.at? address).bind fun node => node.at? under := by
  induction address generalizing tree with
  | nil =>
      rfl
  | cons index rest ih =>
      rw [List.cons_append, at?, at?, Option.bind_assoc]
      exact congrArg _ (funext fun child => ih child)

theorem at?_singleton (tree : Node) (index : Nat) : tree.at? [index] = tree.children[index]? := by
  rw [at?]
  exact Option.bind_fun_some _

/-- A walk comes to the node at each of the addresses. -/
theorem map_at?_addresses (tree : Node) : tree.addresses.map tree.at? = tree.walk.map some := by
  induction tree using induction with
  | h tree ih =>
      rw [addresses_eq, walk_eq, List.map_cons, List.map_cons]
      congr 1
      have hchildren : ∀ left right, tree.children = left ++ right →
          (addressesFrom left.length right).map tree.at? = (right.flatMap walk).map some := by
        intro left right
        induction right generalizing left with
        | nil =>
            intro _
            rfl
        | cons child rest ihrest =>
            intro hsplit
            have hchild : child ∈ tree.children := by
              rw [hsplit]
              exact List.mem_append_right left List.mem_cons_self
            have hread : tree.at? ∘ (left.length :: ·) = child.at? := by
              funext address
              simp [at?, hsplit]
            have hrest := ihrest (left ++ [child]) (by rw [hsplit, List.append_assoc]; rfl)
            rw [List.length_append] at hrest
            rw [addressesFrom, List.map_append, List.map_map, hread, ih child hchild,
              List.flatMap_cons, List.map_append]
            exact congrArg _ hrest
      exact hchildren [] tree.children rfl

theorem length_addresses (tree : Node) : tree.addresses.length = tree.size := by
  have hlength := congrArg List.length tree.map_at?_addresses
  rwa [List.length_map, List.length_map, length_walk] at hlength

theorem isSome_at?_of_mem (h : address ∈ tree.addresses) : ∃ node, tree.at? address = some node := by
  have hmem : tree.at? address ∈ tree.walk.map some :=
    tree.map_at?_addresses ▸ List.mem_map_of_mem h
  obtain ⟨node, _, hnode⟩ := List.mem_map.mp hmem
  exact ⟨node, hnode.symm⟩

theorem head_of_mem_addressesFrom {nodes : List Node} (h : address ∈ addressesFrom index nodes) :
    ∃ later rest, address = later :: rest ∧ index ≤ later := by
  induction nodes generalizing index with
  | nil =>
      cases h
  | cons node others ih =>
      rw [addressesFrom, List.mem_append, List.mem_map] at h
      rcases h with ⟨rest, _, rfl⟩ | h
      · exact ⟨index, rest, rfl, Nat.le_refl index⟩
      · obtain ⟨later, rest, rfl, hlater⟩ := ih h
        exact ⟨later, rest, rfl, by omega⟩

/-- A walk comes to no address twice. -/
theorem nodup_addresses (tree : Node) : tree.addresses.Nodup := by
  induction tree using induction with
  | h tree ih =>
      rw [addresses_eq, List.nodup_cons]
      constructor
      · intro h
        obtain ⟨_, _, heq, _⟩ := head_of_mem_addressesFrom h
        cases heq
      · generalize tree.children = nodes at ih
        generalize 0 = index
        induction nodes generalizing index with
        | nil =>
            exact List.nodup_nil
        | cons node rest ihrest =>
            rw [List.forall_mem_cons] at ih
            rw [addressesFrom, List.nodup_append]
            refine ⟨List.Nodup.map List.cons_injective ih.1, ihrest ih.2 _, ?_⟩
            rintro _ hfirst _ hrest rfl
            obtain ⟨_, _, rfl⟩ := List.mem_map.mp hfirst
            obtain ⟨later, _, hlater, hle⟩ := head_of_mem_addressesFrom hrest
            obtain ⟨rfl, _⟩ := List.cons.inj hlater
            omega

/-- The children before a child, the child, and the children after it. -/
theorem children_eq (h : tree.children[index]? = some child) :
    tree.children = tree.children.take index ++ child :: tree.children.drop (index + 1) ∧
      (tree.children.take index).length = index := by
  obtain ⟨hindex, rfl⟩ := List.getElem?_eq_some_iff.mp h
  rw [← List.drop_eq_getElem_cons, List.take_append_drop, List.length_take_of_le (by omega)]
  exact ⟨rfl, rfl⟩

theorem length_addressesFrom (index : Nat) (nodes : List Node) :
    (addressesFrom index nodes).length = sizeAll nodes := by
  induction nodes generalizing index with
  | nil =>
      rfl
  | cons node rest ih =>
      rw [addressesFrom, List.length_append, List.length_map, length_addresses, ih, sizeAll]

/-- A walk comes to all the nodes of the tree at an address before it goes on, and what it has
passed by then is counted by the number of the address. -/
theorem addresses_split (h : tree.at? address = some node) :
    ∃ front back, tree.addresses = front ++ node.addresses.map (address ++ ·) ++ back ∧
      front.length = tree.numberAt address := by
  induction address generalizing tree with
  | nil =>
      cases h
      exact ⟨[], [], by simp, rfl⟩
  | cons index rest ih =>
      obtain ⟨child, hchild, hbelow⟩ := Option.bind_eq_some_iff.mp h
      obtain ⟨front, back, hsplit, hlength⟩ := ih hbelow
      obtain ⟨hchildren, htake⟩ := children_eq hchild
      refine ⟨[] :: addressesFrom 0 (tree.children.take index) ++ front.map (index :: ·),
        back.map (index :: ·) ++ addressesFrom (index + 1) (tree.children.drop (index + 1)),
        ?_, ?_⟩
      · rw [addresses_eq, hchildren, addressesFrom_append, htake, Nat.zero_add, addressesFrom,
          hsplit, ← hchildren]
        simp [Function.comp_def]
      · rw [numberAt, hchild, Option.map_some, Option.getD_some, ← hlength, List.length_append,
          List.length_cons, length_addressesFrom, List.length_map]

theorem getElem?_numberAt (h : tree.at? address = some node) :
    tree.addresses[tree.numberAt address]? = some address := by
  obtain ⟨front, back, hsplit, hlength⟩ := addresses_split h
  rw [hsplit, ← hlength, addresses_eq]
  simp

/-- The number of an address is its place in the order of a walk, and it has no other place. -/
theorem getElem?_addresses_iff :
    tree.addresses[number]? = some address ↔
      (∃ node, tree.at? address = some node) ∧ tree.numberAt address = number := by
  constructor
  · intro h
    obtain ⟨node, hnode⟩ := isSome_at?_of_mem (List.mem_of_getElem? h)
    obtain ⟨hnumber, hplace⟩ := List.getElem?_eq_some_iff.mp h
    obtain ⟨hnumber', hplace'⟩ := List.getElem?_eq_some_iff.mp (getElem?_numberAt hnode)
    exact ⟨⟨node, hnode⟩,
      (tree.nodup_addresses.getElem_inj_iff).mp (hplace'.trans hplace.symm)⟩
  · rintro ⟨⟨node, hnode⟩, rfl⟩
    exact getElem?_numberAt hnode

theorem numberAt_append (h : tree.at? address = some node) (under : List Nat) :
    tree.numberAt (address ++ under) = tree.numberAt address + node.numberAt under := by
  induction address generalizing tree with
  | nil =>
      cases h
      rw [List.nil_append, numberAt, Nat.zero_add]
  | cons index rest ih =>
      obtain ⟨child, hchild, hbelow⟩ := Option.bind_eq_some_iff.mp h
      rw [List.cons_append, numberAt, numberAt, hchild]
      simp only [Option.map_some, Option.getD_some]
      rw [ih hbelow, ← Nat.add_assoc]

theorem numberAt_singleton (h : node.children[index]? = some child) :
    node.numberAt [index] = sizeAll (node.children.take index) + 1 := by
  rw [numberAt, h]
  rfl

theorem numberAt_add_size_le (h : tree.at? address = some node) :
    tree.numberAt address + node.size ≤ tree.size := by
  obtain ⟨front, back, hsplit, hlength⟩ := addresses_split h
  rw [← length_addresses tree, hsplit, List.length_append, List.length_append, List.length_map,
    length_addresses, hlength]
  exact Nat.le_add_right _ _

theorem size_pos (tree : Node) : 0 < tree.size := by
  rw [size_eq]
  exact Nat.succ_pos _

/-- A child of a node comes after it and after the trees of the children before. -/
theorem getElem?_addresses_child_iff (h : tree.at? address = some node) :
    tree.addresses[number]? = some (address ++ [index]) ↔
      ∃ child, node.children[index]? = some child ∧
        number = tree.numberAt address + sizeAll (node.children.take index) + 1 := by
  rw [getElem?_addresses_iff, at?_append, h, Option.bind_some, at?_singleton, numberAt_append h]
  constructor
  · rintro ⟨⟨child, hchild⟩, rfl⟩
    exact ⟨child, hchild, by rw [numberAt_singleton hchild, Nat.add_assoc]⟩
  · rintro ⟨child, hchild, rfl⟩
    exact ⟨⟨child, hchild⟩, by rw [numberAt_singleton hchild, Nat.add_assoc]⟩

/-- The numbers of the nodes below a node follow on its own, as many as there are. -/
theorem isBelow_iff (h : tree.at? address = some node) :
    tree.IsBelow (tree.numberAt address) number ↔
      tree.numberAt address ≤ number ∧ number < tree.numberAt address + node.size := by
  constructor
  · rintro ⟨other, under, hother, hnumber⟩
    obtain rfl : address = other := Option.some.inj ((getElem?_numberAt h).symm.trans hother)
    obtain ⟨⟨below, hbelow⟩, rfl⟩ := getElem?_addresses_iff.mp hnumber
    rw [at?_append, h] at hbelow
    have hle : node.numberAt under + below.size ≤ node.size := numberAt_add_size_le hbelow
    have hpos : 0 < below.size := below.size_pos
    rw [numberAt_append h]
    omega
  · rintro ⟨hle, hlt⟩
    obtain ⟨front, back, hsplit, hlength⟩ := addresses_split h
    obtain ⟨offset, rfl⟩ := Nat.exists_eq_add_of_le hle
    have hoffset : offset < node.addresses.length := by
      rw [length_addresses]
      omega
    refine ⟨address, node.addresses[offset], getElem?_numberAt h, ?_⟩
    rw [hsplit, ← hlength, List.append_assoc, List.getElem?_append_right (by omega),
      Nat.add_sub_cancel_left, List.getElem?_append_left (by simpa using hoffset)]
    simp

end Addresses

end Node

end SimpleC
