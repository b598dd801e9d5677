import IdlBridge.DeclTree.Basic

/-!
# Inheritance

The bases of an interface may be written through aliases and forward declarations. They are
resolved before they are compared, so an interface that is reached along several paths or
under several names counts once.

`linearize` lists an interface and all interfaces it derives from. The search takes the latest
discovered interface first and lists the bases of each in the order of declaration. What has
not been discovered yet is carried along and shrinks with every discovery, which bounds the
search whatever the graph of bases looks like.
-/

set_option autoImplicit false

namespace IdlBridge.DeclTree

/-- The interfaces that the bases of an interface stand for, in the order of declaration. -/
def resolvedBases (tree : DeclTree) (id : DeclId) : List DeclId :=
  match tree.interface? id with
  | some parts => parts.bases.filterMap tree.resolve?
  | none => []

/-- Splits off what is still undiscovered: the first occurrences of undiscovered numbers, and
what remains without them. -/
def discover (undiscovered : List DeclId) : List DeclId → List DeclId × List DeclId
  | [] => ([], undiscovered)
  | id :: ids =>
    if id ∈ undiscovered then
      let (found, rest) := discover (undiscovered.erase id) ids
      (id :: found, rest)
    else discover undiscovered ids

theorem length_discover (undiscovered ids : List DeclId) :
    (discover undiscovered ids).1.length + (discover undiscovered ids).2.length =
      undiscovered.length := by
  fun_induction discover undiscovered ids with
  | case1 => simp
  | case2 undiscovered id ids member found rest eq ih =>
    have shorter := List.length_erase_of_mem member
    have positive := List.length_pos_of_mem member
    simp only [eq] at ih
    simp only [List.length_cons]
    omega
  | case3 undiscovered id ids _ ih => exact ih

/-- The interfaces that the search finds when it still has to look at the bases of those on
the stack. -/
def search (tree : DeclTree) (undiscovered : List DeclId) : (stack : List DeclId) → List DeclId
  | [] => []
  | id :: stack =>
    (discover undiscovered (tree.resolvedBases id)).1 ++
      search tree (discover undiscovered (tree.resolvedBases id)).2
        ((discover undiscovered (tree.resolvedBases id)).1.reverse ++ stack)
termination_by stack => undiscovered.length + stack.length
decreasing_by
  have := length_discover undiscovered (tree.resolvedBases id)
  simp only [List.length_append, List.length_reverse, List.length_cons]
  omega

/-- The interface that a declaration stands for, followed by all interfaces it derives
from. -/
def linearize (tree : DeclTree) (id : DeclId) : List DeclId :=
  match tree.resolve? id with
  | some start => start :: tree.search (tree.ids.erase start) [start]
  | none => []

/-- The names of an interface and of all interfaces it derives from. -/
def closure (tree : DeclTree) (id : DeclId) : List ScopedName :=
  (tree.linearize id).map tree.scopedName

end IdlBridge.DeclTree

namespace IdlBridge

/-- How a class inherits from another. -/
inductive Inheritance
  | shared
  | plain
  deriving DecidableEq, Repr, Inhabited

/-- The access specifier of a base. -/
def Inheritance.specifier : Inheritance → String
  | shared => "public virtual"
  | plain => "public"

namespace DeclTree

/-- The direct bases of an interface with their inheritance. A base is shared if it is the
root interface, or if a pragma calls it ambiguous by the name it was written with or by its
own. -/
def edges (tree : DeclTree) (root : ScopedName) (id : DeclId) :
    List (DeclId × Inheritance) :=
  match tree.interface? id with
  | none => []
  | some parts => parts.bases.filterMap fun written =>
    (tree.resolve? written).map fun base =>
      let ambiguous := parts.marksAmbiguous (tree.scopedName base) ||
        parts.marksAmbiguous (tree.scopedName written)
      (base, if ambiguous || tree.scopedName base == root then .shared else .plain)

/-- How the adapter of an interface inherits the local interface. Nothing else derives from a
terminal interface, so it need not share. -/
def ownInheritance (tree : DeclTree) (id : DeclId) : Inheritance :=
  match tree.interface? id with
  | some parts => if parts.isTerminal then .plain else .shared
  | none => .shared

end DeclTree

end IdlBridge
