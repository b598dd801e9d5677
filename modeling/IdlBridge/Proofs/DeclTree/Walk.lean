import IdlBridge.DeclTree.Visits
import IdlBridge.Proofs.DeclTree.Construction

/-!
# Walks through a tree

Going through a tree follows its modules. A walk inside a scope is a series of events in which
every module that begins also ends, and every interface has the name of the scope it is met in
(`DeclTree.Walk`). The visits of a built tree are a walk (`DeclTree.Built.walk`), so what is proved
by induction on walks holds of every built tree.
-/

set_option autoImplicit false

namespace IdlBridge.DeclTree

/-- Events that go through part of a tree inside a scope. -/
inductive Walk (tree : DeclTree) : ScopedName → List Visit → Prop
  | nil {scope : ScopedName} : Walk tree scope []
  | module {scope : ScopedName} {name : String} {inner rest : List Visit}
      (inside : Walk tree (scope.child name) inner) (later : Walk tree scope rest) :
      Walk tree scope (.enter name :: inner ++ .leave :: rest)
  | interface {scope : ScopedName} {id : DeclId} {decl : Decl} {rest : List Visit}
      (found : tree.decl? id = some decl) (interface : decl.interface?.isSome = true)
      (named : decl.scopedName = scope.child decl.name) (later : Walk tree scope rest) :
      Walk tree scope (.interface id :: rest)
  | external {scope : ScopedName} {file : String} {rest : List Visit}
      (later : Walk tree scope rest) : Walk tree scope (.external file :: rest)

variable {tree : DeclTree}

theorem Walk.append {scope : ScopedName} {first second : List Visit}
    (walk : tree.Walk scope first) (later : tree.Walk scope second) :
    tree.Walk scope (first ++ second) := by
  induction walk with
  | nil => exact later
  | module inside _ _ ih =>
    rw [List.append_assoc]
    exact .module inside (ih later)
  | interface found interface named _ ih => exact .interface found interface named (ih later)
  | external _ ih => exact .external (ih later)

/-- The visits of listed declarations are a walk inside the scope that lists them. -/
theorem Listed.walk (listed : tree.Listed) (depth : Nat) (parent : Option DeclId)
    {ids : List DeclId} (members : ids ⊆ tree.membersOf parent) :
    tree.Walk (tree.scopeOf parent) (tree.visitsOf depth ids) := by
  induction depth generalizing parent ids with
  | zero => exact .nil
  | succ depth ih =>
    rw [visitsOf]
    induction ids with
    | nil => exact .nil
    | cons id ids rest =>
      rw [List.flatMap_cons]
      refine Walk.append ?_ (rest fun other isMember => members (List.mem_cons_of_mem _ isMember))
      obtain ⟨⟨decl, found, named⟩, -⟩ := listed parent id (members List.mem_cons_self)
      simp only [found]
      split
      · split
        · rename_i inner kind
          -- The members of a module are visited inside the module's own scope.
          have own : tree.scopeOf (some id) = (tree.scopeOf parent).child decl.name := by
            rw [scopeOf, scopedName, found, ← named]
            rfl
          have listing : inner ⊆ tree.membersOf (some id) := by
            rw [membersOf, kind?, found, Option.map_some, kind]
            exact List.Subset.refl _
          exact .module (own ▸ ih (some id) listing) .nil
        · rename_i parts kind
          exact .interface found (by rw [Decl.interface?, kind]; rfl) named .nil
        · exact .nil
      · exact .external .nil

/-- **Going through a built tree is a walk.** -/
theorem Built.walk (built : tree.Built) : tree.Walk .root tree.visits :=
  built.listed.walk (tree.size + 1) none (List.Subset.refl _)

end IdlBridge.DeclTree
