import ModuleAtlas.Graph.Basic
import ModuleAtlas.Proofs.Table
/-!
Counts are recounts. Counting nodes one after the other as they are registered comes to the same
as counting the registered nodes in the end (`record_recount`).
-/
namespace ModuleAtlas

namespace Stats

/-- The node is of a role. -/
def hasRole (role : Role) (node : Node Text) : Bool := node.kind == role.word

/-- The counts of the nodes of a list. -/
def recount (nodes : List (Node Text)) : Stats where
  nodes := nodes.length
  severalComponents := nodes.countP fun node => hasRole .component node && node.several
  components := nodes.countP (hasRole .component)
  states := nodes.countP (hasRole .state)
  utilities := nodes.countP (hasRole .utility)

theorem word_ne_word {left right : Role} (apart : left ≠ right) : left.word ≠ right.word := by
  revert apart
  cases left <;> cases right <;> decide

theorem hasRole_of_word {node : Node Text} {role other : Role} (known : node.kind = role.word) :
    hasRole other node = decide (other = role) := by
  by_cases same : other = role
  · simp [hasRole, known, same]
  · simpa [hasRole, known, same] using word_ne_word (Ne.symm same)

/-- The role of a node is told from its kind. -/
theorem role?_of_word {node : Node Text} {role : Role} (known : node.kind = role.word) :
    role? node = some role := by
  have told : ∀ other : Role, Label.isText other.word node.kind = decide (other = role) :=
    fun _ => hasRole_of_word known
  rw [role?, told, told, told]
  cases role <;> rfl

theorem role?_of_none {node : Node Text} (none : ∀ role, hasRole role node = false) :
    role? node = Option.none := by
  have told : ∀ role : Role, Label.isText role.word node.kind = false := none
  rw [role?, told, told, told]
  rfl

/-- Registering a node keeps the counts those of the registered nodes. -/
theorem record_recount (nodes : List (Node Text)) (node : Node Text) :
    (recount nodes).record node = recount (nodes ++ [node]) := by
  by_cases known : ∃ role : Role, node.kind = role.word
  · obtain ⟨role, known⟩ := known
    rw [record, role?_of_word known]
    cases role <;> cases flag : node.several <;>
      simp [recount, List.countP_append, hasRole_of_word known, flag]
  · have none : ∀ role, hasRole role node = false := by
      intro role
      cases told : hasRole role node with
      | false => rfl
      | true => exact absurd ⟨role, eq_of_beq told⟩ known
    rw [record, role?_of_none none]
    simp [recount, List.countP_append, none]

/-- If every node is of some role, the counts of the roles sum up to that of the nodes. -/
theorem recount_sum {nodes : List (Node Text)}
    (known : ∀ node ∈ nodes, ∃ role : Role, node.kind = role.word) :
    (recount nodes).components + (recount nodes).states + (recount nodes).utilities =
      (recount nodes).nodes := by
  induction nodes with
  | nil => rfl
  | cons node nodes ih =>
    obtain ⟨role, kind⟩ := known node (by simp)
    have later := ih fun node inside => known node (by simp [inside])
    simp only [recount, List.countP_cons, List.length_cons, hasRole_of_word kind] at later ⊢
    cases role <;> simp <;> omega

/-- Counts look at the kind of a node and whether it has several components. -/
theorem recount_map {f : Node Text → Node Text}
    (same : ∀ node, (f node).kind = node.kind ∧ (f node).several = node.several)
    (nodes : List (Node Text)) : recount (nodes.map f) = recount nodes := by
  have roles : ∀ role node, hasRole role (f node) = hasRole role node := by
    intro role node
    rw [hasRole, hasRole, (same node).1]
  simp [recount, List.countP_map, Function.comp_def, roles, (same _).2]

end Stats
end ModuleAtlas
