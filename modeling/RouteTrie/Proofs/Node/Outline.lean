import RouteTrie.Proofs.Build.Shape
import RouteTrie.Proofs.Endpoint.Groups
import RouteTrie.Proofs.Endpoint.Line
import RouteTrie.Proofs.Node.Equality

/-!
# The outline of a trie tells the trie

The outline of a branch consists of blocks, one for every child: a line for the label, and below it
the outline of the child, indented.  No label starts with a space, so the blocks end where the
indentation does; and a label can be read back from its line, as segments end with a slash there and
endpoints with a bracket.

## What is here

* `Endpoint.beq_of_uniqueRoutes_eq`: the groups of an endpoint tell its routes.
* `Edge.line`, `Edge.ofLine_line`: the line of a label, and that it is read back.
* `Node.block`, `Node.blocks_inj`: the block of a child, and where it ends.
* `Node.Legible`: tries in which the groups of all endpoints are legible.
* `Node.WellShaped.beq_of_outlineLines_eq`: the lines of an outline tell the trie.
* `Node.WellShaped.beq_of_outline_eq`: so does the outline.
-/

set_option autoImplicit false

namespace RouteTrie

/-- Endpoints with the same path and the same groups are equal. -/
theorem Endpoint.beq_of_uniqueRoutes_eq {H : Type} [BEq H] [EquivBEq H] {e e' : Endpoint H}
    (hpath : e.path = e'.path) (h : e.uniqueRoutes = e'.uniqueRoutes) : (e == e') = true := by
  -- the routes of a method are both equal to the route of its group
  have hroute : ∀ {a b : Endpoint H}, a.uniqueRoutes = b.uniqueRoutes → ∀ M r,
      a.routes.get? M = some r → ∃ r', b.routes.get? M = some r' ∧ (r == r') = true := by
    intro a b hab M r hr
    obtain ⟨g, (hg : g ∈ a.uniqueRoutes), hM⟩ :=
      exists_mem_group (OrderedMap.get?_eq_some_iff_mem.1 hr)
    obtain ⟨q, hq, hqg⟩ := exists_mem_of_mem_group hg hM
    cases hr.symm.trans (OrderedMap.get?_eq_some_iff_mem.2 hq)
    have hg' : g ∈ b.uniqueRoutes := hab ▸ hg
    obtain ⟨r', hr', hrg⟩ := exists_mem_of_mem_group hg' hM
    exact ⟨r', OrderedMap.get?_eq_some_iff_mem.2 hr', BEq.trans hqg (BEq.symm hrg)⟩
  refine Endpoint.beq_iff.2 ⟨hpath, fun M => rel_of_some_iff (hroute h M) fun r hr => ?_⟩
  obtain ⟨r', hr', -⟩ := hroute h.symm M r hr
  exact ⟨r', hr'⟩

/-! ## The lines of labels -/

namespace Segment

/-- A segment that keys can have: every variable position, and literals with texts of literals. -/
def Readable (a : Segment) : Prop := ∀ text, a = literal text → LiteralText text

theorem readable_wildcard : wildcard.Readable := fun _ h => by cases h

theorem Readable.ofText_text {a : Segment} (h : a.Readable) : ofText a.text.toList = a := by
  cases a with
  | literal text => exact (h text rfl).ofText_eq
  | wildcard => rfl

theorem Readable.not_isBlank_text {a : Segment} (h : a.Readable) :
    ∀ c ∈ a.text.toList, Text.isBlank c = false := by
  intro c hc
  cases a with
  | literal text => exact (h text rfl).not_blank c hc
  | wildcard =>
    rw [List.mem_singleton.1 hc]
    decide

end Segment

namespace Edge

/-- The path of the endpoint with this label below some segments. -/
def leafPath (s : List Segment) : Edge → String
  | terminal => Path.slashed (s.map Segment.text)
  | _ => ""

/-- The line of the child with this label below some segments. -/
def line (s : List Segment) : Edge → String
  | literal text => text ++ "/"
  | wildcard => wildcardText ++ "/"
  | terminal => "[" ++ leafPath s terminal ++ "]"
  | fallback => "[<default>]"

/-- The label of the child with this line: a line that ends with a slash is that of a segment. -/
def ofLine (line : String) : Edge :=
  if line.toList.getLast? = some '/' then ofSegment (Segment.ofText line.toList.dropLast)
  else if line = "[<default>]" then fallback
  else terminal

/-- The line of a segment is its text with a slash at the end. -/
theorem toList_line_ofSegment (s : List Segment) (a : Segment) :
    (line s (ofSegment a)).toList = a.text.toList ++ ['/'] := by
  have hline : line s (ofSegment a) = a.text ++ "/" := by
    cases a <;> rfl
  rw [hline, String.toList_append]
  rfl

theorem toList_line_terminal (s : List Segment) :
    (line s terminal).toList =
      '[' :: '/' :: Text.join '/' ((s.map Segment.text).map String.toList) ++ [']'] := by
  simp only [line, leafPath, Path.slashed, String.toList_append, String.toList_ofList]
  rfl

/-- A label that stands for no segment or for one that keys can have. -/
def Readable (k : Edge) : Prop := ∀ a, k = ofSegment a → a.Readable

/-- **The line of a label is read back.** -/
theorem ofLine_line {k : Edge} (hk : k.Readable) (s : List Segment) : ofLine (k.line s) = k := by
  have hsegment : ∀ a : Segment, a.Readable → ofLine (line s (ofSegment a)) = ofSegment a := by
    intro a ha
    rw [ofLine, toList_line_ofSegment, List.getLast?_concat, List.dropLast_concat, if_pos rfl,
      ha.ofText_text]
  cases k with
  | literal text => exact hsegment (.literal text) (hk _ rfl)
  | wildcard => exact hsegment .wildcard Segment.readable_wildcard
  | terminal =>
    have hfallback : line s terminal ≠ "[<default>]" := by
      intro h
      have htext := toList_line_terminal s
      rw [h] at htext
      cases htext
    rw [ofLine, if_neg hfallback, toList_line_terminal, List.getLast?_concat, if_neg (by decide)]
  | fallback =>
    rw [ofLine, line, if_pos rfl]
    decide

theorem not_isBlank_line_ofSegment {a : Segment} (ha : a.Readable) (s : List Segment) :
    ∀ c ∈ (line s (ofSegment a)).toList, Text.isBlank c = false := by
  intro c hc
  rw [toList_line_ofSegment, List.mem_append] at hc
  rcases hc with hc | hc
  · exact ha.not_isBlank_text c hc
  · rw [List.mem_singleton.1 hc]
    decide

theorem not_isBlank_line_terminal {s : List Segment} (hs : ∀ a ∈ s, a.Readable) :
    ∀ c ∈ (line s terminal).toList, Text.isBlank c = false := by
  intro c hc
  rw [toList_line_terminal] at hc
  simp only [List.cons_append, List.mem_cons, List.mem_append, List.not_mem_nil, or_false] at hc
  rcases hc with rfl | rfl | hc | rfl
  · decide
  · decide
  · rcases Text.eq_or_exists_of_mem_join hc with rfl | ⟨f, hf, hc⟩
    · decide
    · simp only [List.map_map, List.mem_map, Function.comp_apply] at hf
      obtain ⟨a, ha, rfl⟩ := hf
      exact (hs a ha).not_isBlank_text c hc
  · decide

/-- There is no blank in the line of a label. -/
theorem not_isBlank_line {k : Edge} (hk : k.Readable) {s : List Segment}
    (hs : ∀ a ∈ s, a.Readable) : ∀ c ∈ (k.line s).toList, Text.isBlank c = false := by
  cases k with
  | literal text => exact not_isBlank_line_ofSegment (a := .literal text) (hk _ rfl) s
  | wildcard => exact not_isBlank_line_ofSegment Segment.readable_wildcard s
  | terminal => exact not_isBlank_line_terminal hs
  | fallback =>
    intro c hc
    have hall : "[<default>]".toList.all (fun c => !Text.isBlank c) = true := by decide
    simpa using List.all_eq_true.1 hall c hc

end Edge

namespace Node

/-! ## Blocks -/

/-- A line followed by some lines that are indented. -/
def block (b : String × List String) : List String := b.1 :: b.2.map ("  " ++ ·)

/-- A line that starts with a space. -/
def Indented (line : String) : Prop := line.toList.head? = some ' '

theorem indented_indent (line : String) : Indented ("  " ++ line) := by
  rw [Indented, String.toList_append]
  rfl

/-- **Blocks end where the indentation does.** -/
theorem blocks_inj {bs cs : List (String × List String)} (hbs : ∀ b ∈ bs, ¬Indented b.1)
    (hcs : ∀ c ∈ cs, ¬Indented c.1) (h : bs.flatMap block = cs.flatMap block) : bs = cs := by
  have hhead : ∀ ds : List (String × List String), (∀ d ∈ ds, ¬Indented d.1) →
      ∀ line ∈ (ds.flatMap block).head?, ¬Indented line := by
    intro ds hds line hline
    cases ds with
    | nil => cases hline
    | cons d ds =>
      cases hline
      exact hds d List.mem_cons_self
  have hindented : ∀ lines : List String, ∀ line ∈ lines.map ("  " ++ ·), Indented line := by
    intro lines line hline
    obtain ⟨l, -, rfl⟩ := List.mem_map.1 hline
    exact indented_indent l
  induction bs generalizing cs with
  | nil =>
    cases cs with
    | nil => rfl
    | cons c cs => cases h
  | cons b bs ih =>
    cases cs with
    | nil => cases h
    | cons c cs =>
      have hbs' : ∀ d ∈ bs, ¬Indented d.1 := fun d hd => hbs d (List.mem_cons_of_mem b hd)
      have hcs' : ∀ d ∈ cs, ¬Indented d.1 := fun d hd => hcs d (List.mem_cons_of_mem c hd)
      obtain ⟨line, lines⟩ := b
      obtain ⟨line', lines'⟩ := c
      rw [List.flatMap_cons, List.flatMap_cons, block, block, List.cons_append, List.cons_append,
        List.cons.injEq] at h
      obtain ⟨rfl, htail⟩ := h
      obtain ⟨hlines, hrest⟩ := Text.append_inj_of_head (hindented lines) (hindented lines')
        (hhead bs hbs') (hhead cs hcs') htail
      have hinj : Function.Injective ("  " ++ · : String → String) := fun _ _ =>
        (String.append_right_inj _).1
      rw [List.map_injective_iff.2 hinj hlines, ih hbs' hcs' hrest]

/-- The lines of some children are those of their blocks. -/
theorem childrenLines_eq_flatMap {H : Type} [BEq H] (display : H → String)
    (cs : List (Edge × Node H)) :
    childrenLines display cs =
      (cs.map fun p => (childLine p.1 p.2, outlineLines display p.2)).flatMap block := by
  induction cs with
  | nil => rfl
  | cons p cs ih =>
    obtain ⟨k, n⟩ := p
    rw [childrenLines, ih, List.map_cons, List.flatMap_cons, block, List.cons_append]

/-! ## Tries -/

/-- A trie in which the groups of all endpoints are legible. -/
def Legible {H : Type} [BEq H] (n : Node H) : Prop :=
  ∀ e ∈ n.endpoints, ∀ g ∈ e.uniqueRoutes, g.Legible

theorem Legible.of_mem {H : Type} [BEq H] {cs : List (Edge × Node H)} (h : (branch cs).Legible)
    {k : Edge} {c : Node H} (hc : (k, c) ∈ cs) : c.Legible := by
  intro e he
  refine h e ?_
  rw [endpoints, endpointsOf_eq_flatMap]
  exact List.mem_flatMap.2 ⟨(k, c), hc, he⟩

namespace WellShaped

section Children

variable {H : Type} {s : List Segment} {cs : List (Edge × Node H)}
  (h : (Node.branch cs).WellShaped s)
include h

theorem readable_of_mem {k : Edge} {c : Node H} (hc : (k, c) ∈ cs) : k.Readable := by
  cases h with
  | branch nodup literal full below terminal fallback =>
    rintro a rfl text rfl
    exact literal text c hc

theorem below_of_mem {a : Segment} {c : Node H} (hc : (.ofSegment a, c) ∈ cs) :
    c.WellShaped (s ++ [a]) := by
  cases h with
  | branch nodup literal full below terminal fallback => exact below a c hc

/-- A child that does not stand for a segment is an endpoint. -/
theorem leaf_of_mem {p : Place} {c : Node H} (hc : (p.edge, c) ∈ cs) :
    ∃ e, c = endpoint e ∧ e.path = p.edge.leafPath s := by
  cases h with
  | branch nodup literal full below terminal fallback =>
    cases p with
    | path _ =>
      obtain ⟨e, he, -, -, hpath⟩ := terminal c hc
      exact ⟨e, he, hpath⟩
    | fallback _ =>
      obtain ⟨-, e, he, -, hpath⟩ := fallback c hc
      exact ⟨e, he, hpath⟩

/-- The line of a child is that of its label. -/
theorem childLine_eq {k : Edge} {c : Node H} (hc : (k, c) ∈ cs) : childLine k c = k.line s := by
  cases k with
  | literal text => rfl
  | wildcard => rfl
  | terminal =>
    obtain ⟨e, rfl, hpath⟩ := h.leaf_of_mem (p := .path []) hc
    have hne : ¬e.path.isEmpty = true := by
      rw [hpath, String.isEmpty_iff]
      exact Path.slashed_ne_empty _
    rw [childLine, if_neg hne, hpath]
    rfl
  | fallback =>
    obtain ⟨e, rfl, hpath⟩ := h.leaf_of_mem (p := .fallback []) hc
    rw [childLine, hpath]
    rfl

variable (hs : ∀ a ∈ s, a.Readable)
include hs

theorem readable_of_mem_concat {a : Segment} {c : Node H} (hc : (.ofSegment a, c) ∈ cs) :
    ∀ b ∈ s ++ [a], b.Readable := by
  intro b hb
  rcases List.mem_append.1 hb with hb | hb
  · exact hs b hb
  · rw [List.mem_singleton.1 hb]
    exact h.readable_of_mem hc a rfl

theorem not_isBlank_childLine {k : Edge} {c : Node H} (hc : (k, c) ∈ cs) :
    ∀ x ∈ (childLine k c).toList, Text.isBlank x = false := by
  rw [h.childLine_eq hc]
  exact Edge.not_isBlank_line (h.readable_of_mem hc) hs

/-- The blocks of children do not start with spaces. -/
theorem not_indented [BEq H] (display : H → String) :
    ∀ b ∈ cs.map fun p => (childLine p.1 p.2, outlineLines display p.2), ¬Indented b.1 := by
  intro b hb hindented
  obtain ⟨⟨k, c⟩, hc, rfl⟩ := List.mem_map.1 hb
  have hblank := h.not_isBlank_childLine hs hc ' ' (List.mem_of_mem_head? hindented)
  exact absurd hblank (by decide)

end Children

variable {s : List Segment}

/-- **The lines of an outline tell the trie**, up to equality. -/
theorem beq_of_outlineLines_eq {n m : Node Json} (hn : n.WellShaped s) (hm : m.WellShaped s)
    (hs : ∀ a ∈ s, a.Readable) (hnl : n.Legible) (hml : m.Legible)
    (h : n.outlineLines Json.compact = m.outlineLines Json.compact) : (n == m) = true := by
  induction hn generalizing m with
  | @branch s cs nodup literal full below terminal fallback ih =>
    have hn : (Node.branch cs).WellShaped s := .branch nodup literal full below terminal fallback
    obtain ⟨ds, rfl⟩ : ∃ ds, m = .branch ds := by
      cases hm
      exact ⟨_, rfl⟩
    rw [outlineLines, outlineLines, childrenLines_eq_flatMap, childrenLines_eq_flatMap] at h
    have hblocks := blocks_inj (hn.not_indented hs _) (hm.not_indented hs _) h
    rw [branch_beq_branch]
    refine rearranged_of_map_eq ?_ hblocks
    rintro ⟨k, c⟩ hc ⟨k', d⟩ hd heq
    obtain ⟨hline, hlines⟩ := Prod.mk.inj heq
    obtain rfl : k = k' := by
      rw [hn.childLine_eq hc, hm.childLine_eq hd] at hline
      rw [← Edge.ofLine_line (hn.readable_of_mem hc) s, hline,
        Edge.ofLine_line (hm.readable_of_mem hd) s]
    have hsame : (c == d) = true := by
      rcases k.eq_ofSegment_or_edge with ⟨a, rfl⟩ | ⟨p, -, rfl⟩
      · exact ih a c hc (hm.below_of_mem hd) (hn.readable_of_mem_concat hs hc) (hnl.of_mem hc)
          (hml.of_mem hd) hlines
      · obtain ⟨e, rfl, hpath⟩ := hn.leaf_of_mem hc
        obtain ⟨e', rfl, hpath'⟩ := hm.leaf_of_mem hd
        have hgroups : e.uniqueRoutes = e'.uniqueRoutes :=
          Text.map_inj_on (fun g hg g' hg' =>
            RouteGroup.line_inj (hnl.of_mem hc e (List.mem_singleton_self e) g hg)
              (hml.of_mem hd e' (List.mem_singleton_self e') g' hg')) hlines
        rw [endpoint_beq_endpoint]
        exact Endpoint.beq_of_uniqueRoutes_eq (hpath.trans hpath'.symm) hgroups
    rw [decide_eq_true rfl, Bool.true_and]
    exact hsame

/-- The lines of an outline are lines. -/
theorem not_mem_of_mem_outlineLines {n : Node Json} (hn : n.WellShaped s)
    (hs : ∀ a ∈ s, a.Readable) (hl : n.Legible) :
    ∀ line ∈ n.outlineLines Json.compact, '\n' ∉ line.toList := by
  induction hn with
  | @branch s cs nodup literal full below terminal fallback ih =>
    have hn : (Node.branch cs).WellShaped s := .branch nodup literal full below terminal fallback
    have hchild : ∀ k c, (k, c) ∈ cs → ∀ line ∈ c.outlineLines Json.compact,
        '\n' ∉ line.toList := by
      intro k c hc
      rcases k.eq_ofSegment_or_edge with ⟨a, rfl⟩ | ⟨p, -, rfl⟩
      · exact ih a c hc (hn.readable_of_mem_concat hs hc) (hl.of_mem hc)
      · obtain ⟨e, rfl, -⟩ := hn.leaf_of_mem hc
        intro line hline
        obtain ⟨g, hg, rfl⟩ := List.mem_map.1 hline
        exact RouteGroup.not_mem_line (hl.of_mem hc e (List.mem_singleton_self e) g hg)
    intro line hline
    rw [outlineLines, childrenLines_eq_flatMap, List.flatMap_map, List.mem_flatMap] at hline
    obtain ⟨⟨k, c⟩, hc, hline⟩ := hline
    rcases List.mem_cons.1 hline with rfl | hline
    · intro hmem
      exact absurd (hn.not_isBlank_childLine hs hc '\n' hmem) (by decide)
    · obtain ⟨l, hl, rfl⟩ := List.mem_map.1 hline
      rw [String.toList_append, List.mem_append]
      rintro (hmem | hmem)
      · exact absurd hmem (by decide)
      · exact hchild k c hc l hl hmem

end WellShaped

theorem toList_outline {H : Type} [BEq H] (display : H → String) (n : Node H) :
    (n.outline display).toList =
      ((n.outlineLines display).map String.toList).flatMap fun line => line ++ ['\n'] := by
  rw [outline, String.toList_join, List.flatMap_map, List.flatMap_map]
  congr 1
  funext line
  rw [String.toList_append]
  rfl

/-- **The outline of a trie tells the trie**, up to equality. -/
theorem WellShaped.beq_of_outline_eq {n m : Node Json} (hn : n.WellShaped [])
    (hm : m.WellShaped []) (hnl : n.Legible) (hml : m.Legible)
    (h : n.outline Json.compact = m.outline Json.compact) : (n == m) = true := by
  have hs : ∀ a ∈ ([] : List Segment), a.Readable := fun a ha => by cases ha
  have hlines : ∀ {k : Node Json}, k.WellShaped [] → k.Legible →
      ∀ line ∈ (k.outlineLines Json.compact).map String.toList, '\n' ∉ line := by
    intro k hk hkl line hline
    obtain ⟨l, hl, rfl⟩ := List.mem_map.1 hline
    exact hk.not_mem_of_mem_outlineLines hs hkl l hl
  have htext := congrArg String.toList h
  rw [toList_outline, toList_outline] at htext
  have hmap := Text.lines_inj (hlines hn hnl) (hlines hm hml) htext
  exact hn.beq_of_outlineLines_eq hm hs hnl hml
    (List.map_injective_iff.2 (fun _ _ => String.toList_inj.1) hmap)

end Node

end RouteTrie
