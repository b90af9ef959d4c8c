import RunAudit.Proofs.Xml.Rendering
import RunAudit.Xml.Printer

/-!
# What the printer writes

A node to write stands for a tree (`Node.tree`). When its tags and keys are names and no tag has a key twice, what the
printer writes is a text that writes this tree (`rendering_write`): values are escaped, text holds no `<`, and new
lines, blanks and the heading say nothing of elements. So it is read back as the document of the tree
(`parse_write`).
-/

namespace RunAudit.Xml

mutual

/-- The tree that a node stands for: its text says nothing of elements. -/
def Node.tree : Node → ElementTree
  | .empty tag attributes => ⟨tag, attributes, []⟩
  | .text tag attributes _ => ⟨tag, attributes, []⟩
  | .parent tag attributes children => ⟨tag, attributes, treeAll children⟩

/-- The trees that nodes stand for. -/
def treeAll : List Node → List ElementTree
  | [] => []
  | node :: rest => node.tree :: treeAll rest

end

theorem treeAll_eq_map : ∀ nodes : List Node, treeAll nodes = nodes.map Node.tree
  | [] => rfl
  | node :: rest => by rw [treeAll, treeAll_eq_map rest, List.map_cons]

/-- A tag with attributes that can be read: names only, and no key twice. -/
structure ProperTag (tag : String) (attributes : Fields String) : Prop where
  tag : isName tag = true
  keys : ∀ key ∈ attributes.map Prod.fst, isName key = true
  distinct : (attributes.map Prod.fst).Nodup

mutual

/-- A node all of whose tags can be read. -/
def Node.Proper : Node → Prop
  | .empty tag attributes => ProperTag tag attributes
  | .text tag attributes _ => ProperTag tag attributes
  | .parent tag attributes children => ProperTag tag attributes ∧ ProperAll children

/-- Nodes all of whose tags can be read. -/
def ProperAll : List Node → Prop
  | [] => True
  | node :: rest => node.Proper ∧ ProperAll rest

end

theorem properAll_iff : ∀ {nodes : List Node}, ProperAll nodes ↔ ∀ node ∈ nodes, node.Proper
  | [] => by simp [ProperAll]
  | node :: rest => by simp [ProperAll, properAll_iff]

/-! ## Tags and text -/

/-- Attributes are written as they may be. -/
theorem attributesWritten_write : ∀ {attributes : Fields String},
    (∀ key ∈ attributes.map Prod.fst, isName key = true) → AttributesWritten attributes (writeAttributes attributes)
  | [], _ => .nil
  | (key, value) :: rest, h => by
    have hrest := attributesWritten_write fun k hk => h k (List.mem_cons_of_mem _ hk)
    have hb : Blank [' '] := by simp [Blank, isSpace]
    have := AttributesWritten.cons (h key List.mem_cons_self) (List.cons_ne_nil _ _) hb blank_nil blank_nil
      (.inl rfl) (escaped_escape (.inl rfl) value.toList) hrest
    simpa [writeAttributes] using this

/-- Text without `<` says nothing of elements. -/
theorem filler_of_not_mem : ∀ {s : List Char}, '<' ∉ s → Filler s
  | [], _ => .nil
  | c :: s, h => by
    obtain ⟨hc, hs⟩ := not_or.1 (mt List.mem_cons.2 h)
    exact .text (Ne.symm hc) (filler_of_not_mem hs)

theorem filler_newLine (depth : Nat) : Filler (newLine depth) :=
  filler_of_not_mem (by simp [newLine, List.mem_replicate])

/-- Filler in front of filler. -/
theorem Filler.append {f g : List Char} (hf : Filler f) (hg : Filler g) : Filler (f ++ g) := by
  induction hf with
  | nil => exact hg
  | text hc _ ih => exact .text hc ih
  | comment hc _ ih => simpa only [List.append_assoc] using Filler.comment hc ih
  | cdata hc _ ih => simpa only [List.append_assoc] using Filler.cdata hc ih
  | instruction hn hc _ ih => simpa only [List.append_assoc] using Filler.instruction hn hc ih

/-- Filler in front of trees. -/
theorem Rendering.filler {f s : List Char} {ts : List ElementTree} (hf : Filler f) (h : Rendering ts s) :
    Rendering ts (f ++ s) := by
  cases h with
  | nil hg => exact .nil (hf.append hg)
  | empty hg ht ha hd hb h =>
    rw [← List.append_assoc]
    exact .empty (hf.append hg) ht ha hd hb h
  | nested hg ht ha hd hb hc hb' h =>
    rw [← List.append_assoc]
    exact .nested (hf.append hg) ht ha hd hb hc hb' h

/-! ## Nodes -/

mutual

/-- **A node is written as its tree** in front of what else is written. -/
theorem rendering_write : ∀ {node : Node} (depth : Nat) {ts : List ElementTree} {s : List Char}, node.Proper →
    Rendering ts s → Rendering (node.tree :: ts) (node.write depth ++ s)
  | .empty tag attributes, depth, ts, s, hp, h => by
    have := Rendering.empty (filler_newLine depth) hp.tag (attributesWritten_write hp.keys) hp.distinct blank_nil h
    simpa [Node.write, Node.tree, openTag] using this
  | .text tag attributes content, depth, ts, s, hp, h => by
    have := Rendering.nested (filler_newLine depth) hp.tag (attributesWritten_write hp.keys) hp.distinct blank_nil
      (.nil (filler_of_not_mem (lt_not_mem_escape content.toList))) blank_nil h
    simpa [Node.write, Node.tree, openTag, closeTag] using this
  | .parent tag attributes children, depth, ts, s, hp, h => by
    obtain ⟨hp, hc⟩ := hp
    have hchildren := rendering_writeAll (depth + 1) hc (.nil (filler_newLine depth))
    have := Rendering.nested (filler_newLine depth) hp.tag (attributesWritten_write hp.keys) hp.distinct blank_nil
      hchildren blank_nil h
    simpa [Node.write, Node.tree, openTag, closeTag] using this

/-- Nodes are written as their trees. -/
theorem rendering_writeAll : ∀ {nodes : List Node} (depth : Nat) {ts : List ElementTree} {s : List Char},
    ProperAll nodes → Rendering ts s → Rendering (treeAll nodes ++ ts) (writeAll depth nodes ++ s)
  | [], _, _, _, _, h => h
  | node :: rest, depth, ts, s, hp, h => by
    obtain ⟨hn, hr⟩ := hp
    have := rendering_write depth hn (rendering_writeAll depth hr h)
    simpa [writeAll, treeAll] using this

end

/-- The heading says nothing of elements. -/
theorem filler_heading : Filler heading.toList := by
  have : Filler ("<?".toList ++ ("xml version=\"1.0\" encoding=\"UTF-8\"".toList ++ ("?>".toList ++ []))) :=
    .instruction (by simp) (by simp) .nil
  simpa [heading] using this

/-- **What the printer writes** is read back as the document of the tree. -/
theorem parse_write {root : Node} (h : root.Proper) : Document.parse (write root) = .ok (.ofTree root.tree) := by
  have hend : Rendering [] ['\n'] := .nil (filler_newLine 0)
  have := (rendering_write 0 h hend).filler filler_heading
  exact parse_of_rendering (by simpa [write] using this)

end RunAudit.Xml
