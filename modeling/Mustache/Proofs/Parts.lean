import Mustache.Tree.Basic

/-!
This module contains the nodes of a tree at every depth.
-/

namespace Mustache

mutual

/--
A node and those in its body and in its inverse, at every depth.
-/
def Node.parts : Node → List Node
  | .literal text => [.literal text]
  | .comment text => [.comment text]
  | .variable call escape => [.variable call escape]
  | .inclusion path => [.inclusion path]
  | .block opening body inverse =>
    .block opening body inverse :: (Fragment.anyParts body ++ Fragment.anyParts inverse)

def Fragment.parts : List Node → List Node
  | [] => []
  | node :: nodes => node.parts ++ Fragment.parts nodes

def Fragment.anyParts : Option (List Node) → List Node
  | none => []
  | some fragment => Fragment.parts fragment

end

theorem Node.mem_parts (node : Node) : node ∈ node.parts := by
  cases node <;> exact List.mem_cons_self

namespace Fragment

variable {fragment body inverse : Fragment} {other : Option Fragment} {opening : Opening} {node : Node}

theorem parts_append (first second : Fragment) : parts (first ++ second) = parts first ++ parts second := by
  induction first with
  | nil => rfl
  | cons node nodes ih => rw [List.cons_append, parts, parts, ih, List.append_assoc]

theorem parts_sublist (h : node ∈ fragment) : node.parts.Sublist (parts fragment) := by
  obtain ⟨before, after, rfl⟩ := List.append_of_mem h
  rw [parts_append, parts]
  exact (List.sublist_append_left ..).trans (List.sublist_append_right ..)

theorem mem_parts (h : node ∈ fragment) : node ∈ parts fragment :=
  (parts_sublist h).subset node.mem_parts

theorem parts_body (h : .block opening (some body) other ∈ fragment) :
    parts body ⊆ parts fragment ∧ (parts body).length < (parts fragment).length := by
  have hsub := parts_sublist h
  rw [Node.parts] at hsub
  have hbody := (List.sublist_append_left (parts body) (anyParts other)).cons_cons (.block opening (some body) other)
  exact ⟨List.Subset.trans (List.subset_cons_self ..) (hbody.trans hsub).subset, (hbody.trans hsub).length_le⟩

theorem parts_inverse (h : .block opening other (some inverse) ∈ fragment) :
    parts inverse ⊆ parts fragment ∧ (parts inverse).length < (parts fragment).length := by
  have hsub := parts_sublist h
  rw [Node.parts] at hsub
  have hinverse :=
    (List.sublist_append_right (anyParts other) (parts inverse)).cons_cons (.block opening other (some inverse))
  exact ⟨List.Subset.trans (List.subset_cons_self ..) (hinverse.trans hsub).subset, (hinverse.trans hsub).length_le⟩

end Fragment

end Mustache
