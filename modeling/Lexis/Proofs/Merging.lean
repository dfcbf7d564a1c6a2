import Lexis.Proofs.Lookahead
import Lexis.Proofs.Positions
import Lexis.Proofs.Rendering

/-!
# Merging spans

Spans can be merged in any order and with any bracketing (`Merging`). On spans in general the order
matters: of two spans that start together, the left one gives the line and the column. On spans of
**one source** it does not, for there a span is determined by its two ends
(`Span.Covers.eq_of_bounds`), and the ends of a merged span are the least start and the greatest end
(`Merging.isHull_result`), whatever the order.

What keeps merged spans in the source is that of two front parts of a text one is a front part of
the other (`Span.Covers.merge`).
-/

namespace Lexis

namespace Span

variable {source : List Char} {s t : Span}

/-! ### Laws of merging -/

/-- A span is its first position and its end. -/
private theorem eq_of_first (hfirst : s.first = t.first) (hstop : s.stop = t.stop) : s = t := by
  cases s
  cases t
  cases hfirst
  cases hstop
  rfl

private theorem start_merge (s t : Span) : (s.merge t).start = min s.start t.start := rfl

private theorem stop_merge (s t : Span) : (s.merge t).stop = max s.stop t.stop := rfl

/-- The position of a merged span is that of the span that starts first, or of the left one. -/
private theorem first_merge (s t : Span) :
    (s.merge t).first = if s.start ≤ t.start then s.first else t.first := by
  unfold first merge
  split_ifs with h
  · rw [Nat.min_eq_left h]
  · rw [Nat.min_eq_right (Nat.le_of_not_le h)]

/-- Merging is associative: the first of several spans counts, and the leftmost of those that start
together. -/
private theorem merge_assoc (a b c : Span) : (a.merge b).merge c = a.merge (b.merge c) := by
  refine eq_of_first ?_ (Nat.max_assoc _ _ _)
  simp only [first_merge, start_merge]
  split_ifs <;> first | rfl | omega

private theorem merge_self (s : Span) : s.merge s = s := by
  refine eq_of_first ?_ (Nat.max_self _)
  rw [first_merge, if_pos (Nat.le_refl _)]

/-- Two spans can be exchanged, unless they start together and disagree about where this is. Only
the place of the first one is kept, and starts say which one this is. -/
private theorem merge_comm_of (h : s.start = t.start → s.line = t.line ∧ s.column = t.column) :
    s.merge t = t.merge s := by
  refine eq_of_first ?_ (Nat.max_comm _ _)
  rw [first_merge, first_merge]
  split_ifs with hst hts hts
  · have hstart : s.start = t.start := Nat.le_antisymm hst hts
    obtain ⟨hline, hcolumn⟩ := h hstart
    rw [first, first, hstart, hline, hcolumn]
  · rfl
  · rfl
  · omega

/-- Where lines or columns differ at one start, the left one is kept. -/
example : (⟨0, 1, 1, 1⟩ : Span).merge ⟨0, 1, 2, 7⟩ ≠ (⟨0, 1, 2, 7⟩ : Span).merge ⟨0, 1, 1, 1⟩ := by
  decide

/-! ### Spans of one source -/

/-- The span of a part is given by the texts in front of its ends, of which the first is a front
part of the second. -/
private theorem covers_iff : s.Covers source ↔ ∃ front upto, front <+: upto ∧ upto <+: source ∧
    s = between (Position.after front) (Position.after upto) := by
  constructor
  · rintro ⟨front, part, back, happ, rfl⟩
    exact ⟨front, front ++ part, List.prefix_append _ _, ⟨back, by rw [List.append_assoc, happ]⟩,
      rfl⟩
  · rintro ⟨front, upto, ⟨part, rfl⟩, ⟨back, happ⟩, rfl⟩
    exact ⟨front, part, back, by rw [← happ, List.append_assoc], rfl⟩

/-- **A span of a source is determined by its ends**: line and column depend on the start only, and
equal offsets are behind equal texts. -/
theorem Covers.eq_of_bounds (hs : s.Covers source) (ht : t.Covers source)
    (hstart : s.start = t.start) (hstop : s.stop = t.stop) : s = t := by
  obtain ⟨front, part, back, happ, rfl⟩ := hs
  obtain ⟨front', part', back', happ', rfl⟩ := ht
  simp only [between, Position.offset_after] at hstart hstop
  obtain ⟨rfl, hrest⟩ := Text.append_inj_of_byteLength (happ.trans happ'.symm) hstart
  rw [Text.byteLength_append, Text.byteLength_append, Nat.add_left_cancel_iff] at hstop
  obtain ⟨rfl, -⟩ := Text.append_inj_of_byteLength hrest hstop
  rfl

/-- **Spans of a source are merged to a span of it.** It starts with the earlier and ends with the
later of the two, each of which has a front part of the source before it. -/
theorem Covers.merge (hs : s.Covers source) (ht : t.Covers source) :
    (s.merge t).Covers source := by
  have hle : (s.merge t).start ≤ (s.merge t).stop := by
    have hbounds := hs.bounds.1
    rw [start_merge, stop_merge]
    omega
  obtain ⟨f, u, hf, hu, hspan⟩ := covers_iff.mp hs
  obtain ⟨f', u', hf', hu', hspan'⟩ := covers_iff.mp ht
  obtain ⟨front, hfront, hfirst⟩ :
      ∃ front, front <+: source ∧ (s.merge t).first = Position.after front := by
    rw [first_merge, hspan, hspan']
    split_ifs
    · exact ⟨f, hf.trans hu, rfl⟩
    · exact ⟨f', hf'.trans hu', rfl⟩
  obtain ⟨upto, hupto, hstop⟩ :
      ∃ upto, upto <+: source ∧ (s.merge t).stop = (Position.after upto).offset := by
    rw [stop_merge, hspan, hspan']
    rcases Nat.le_total (Position.after u).offset (Position.after u').offset with h | h
    · exact ⟨u', hu', Nat.max_eq_right h⟩
    · exact ⟨u, hu, Nat.max_eq_left h⟩
  have hstart : (s.merge t).start = (Position.after front).offset :=
    congrArg Position.offset hfirst
  rw [hstart, hstop, Position.offset_after, Position.offset_after] at hle
  exact covers_iff.mpr ⟨front, upto, Text.prefix_of_byteLength_le hfront hupto hle, hupto,
    eq_of_first hfirst hstop⟩

/-- The text that a span of a source covers can be cut out of it. -/
theorem Covers.exists_snippet (h : s.Covers source) : ∃ text, s.snippet? source = .ok text := by
  obtain ⟨front, part, back, rfl, rfl⟩ := h
  exact ⟨part, snippet?_between front part back⟩

/-! ### Hulls -/

/-- The span reaches from the least start to the greatest end of the given ones. -/
structure IsHull (spans : List Span) (s : Span) : Prop where
  start_mem : s.start ∈ spans.map Span.start
  start_le : ∀ x ∈ spans, s.start ≤ x.start
  stop_mem : s.stop ∈ spans.map Span.stop
  le_stop : ∀ x ∈ spans, x.stop ≤ s.stop

private theorem isHull_singleton (s : Span) : IsHull [s] s :=
  ⟨by simp, by simp, by simp, by simp⟩

/-- The hull of all spans is merged from the hulls of two portions, as least starts and greatest
ends are found portion by portion. -/
theorem IsHull.merge {xs ys : List Span} (hs : IsHull xs s) (ht : IsHull ys t) :
    IsHull (xs ++ ys) (s.merge t) := by
  refine ⟨?_, ?_, ?_, ?_⟩
  · rw [start_merge, List.map_append, List.mem_append]
    rcases Nat.le_total s.start t.start with h | h
    · exact .inl (by rw [Nat.min_eq_left h]; exact hs.start_mem)
    · exact .inr (by rw [Nat.min_eq_right h]; exact ht.start_mem)
  · exact List.forall_mem_append.mpr
      ⟨fun x hx => (Nat.min_le_left _ _).trans (hs.start_le x hx),
        fun x hx => (Nat.min_le_right _ _).trans (ht.start_le x hx)⟩
  · rw [stop_merge, List.map_append, List.mem_append]
    rcases Nat.le_total s.stop t.stop with h | h
    · exact .inr (by rw [Nat.max_eq_right h]; exact ht.stop_mem)
    · exact .inl (by rw [Nat.max_eq_left h]; exact hs.stop_mem)
  · exact List.forall_mem_append.mpr
      ⟨fun x hx => (hs.le_stop x hx).trans (Nat.le_max_left _ _),
        fun x hx => (ht.le_stop x hx).trans (Nat.le_max_right _ _)⟩

/-- The hull of more spans reaches further, or as far. -/
private theorem IsHull.mono {xs ys : List Span} (hs : IsHull xs s) (ht : IsHull ys t)
    (h : ∀ x ∈ ys, x ∈ xs) : s.start ≤ t.start ∧ t.stop ≤ s.stop := by
  obtain ⟨x, hx, hstart⟩ := List.mem_map.mp ht.start_mem
  obtain ⟨y, hy, hstop⟩ := List.mem_map.mp ht.stop_mem
  exact ⟨hstart ▸ hs.start_le x (h x hx), hstop ▸ hs.le_stop y (h y hy)⟩

/-- What one of the spans contains, the hull does. -/
theorem IsHull.contains {spans : List Span} (h : IsHull spans s) {x : Span} (hx : x ∈ spans)
    {offset : Nat} (hoffset : x.contains offset = true) : s.contains offset = true := by
  have hstart := h.start_le x hx
  have hstop := h.le_stop x hx
  simp only [Span.contains, Bool.and_eq_true, decide_eq_true_eq] at hoffset ⊢
  omega

end Span

/-! ### Any order and any bracketing -/

/-- A way to merge spans two by two. -/
inductive Merging where
  /-- A span as it is. -/
  | span (s : Span)
  /-- What two ways lead to, merged. -/
  | merge (a b : Merging)

namespace Merging

/-- The spans that are merged, from left to right. -/
def spans : Merging → List Span
  | span s => [s]
  | merge a b => a.spans ++ b.spans

/-- What the spans are merged to. -/
def result : Merging → Span
  | span s => s
  | merge a b => a.result.merge b.result

/-- Spans that are merged one after the other to what was merged before. -/
def andThen (m : Merging) (more : List Span) : Merging :=
  more.foldl (fun m x => .merge m (.span x)) m

/-- Spans that are merged in one by one come behind the others. -/
private theorem spans_andThen (m : Merging) (more : List Span) :
    (m.andThen more).spans = m.spans ++ more := by
  induction more generalizing m with
  | nil => exact (List.append_nil _).symm
  | cons x more ih => exact (ih _).trans (List.append_assoc _ _ _)

/-- Merging spans in one by one is a fold. -/
private theorem result_andThen (m : Merging) (more : List Span) :
    (m.andThen more).result = more.foldl Span.merge m.result := by
  induction more generalizing m with
  | nil => rfl
  | cons x more ih => exact ih _

/-- Whatever the bracketing is, spans are merged to their hull. -/
private theorem isHull_result (m : Merging) : Span.IsHull m.spans m.result := by
  induction m with
  | span s => exact Span.isHull_singleton s
  | merge a b iha ihb => exact iha.merge ihb

/-- Whatever the bracketing is, spans of a source are merged to a span of this source. -/
private theorem covers_result {source : List Char} {m : Merging}
    (h : ∀ s ∈ m.spans, s.Covers source) : m.result.Covers source := by
  induction m with
  | span s => exact h s (List.mem_singleton.mpr rfl)
  | merge a b iha ihb =>
    obtain ⟨ha, hb⟩ := List.forall_mem_append.mp h
    exact (iha ha).merge (ihb hb)

/-- **Neither order nor bracketing matters** for spans of one source: both results are hulls of the
same spans, and a span of a source is determined by its ends. -/
theorem result_eq {source : List Char} {m n : Merging} (h : ∀ s ∈ m.spans, s.Covers source)
    (hmem : ∀ s, s ∈ n.spans ↔ s ∈ m.spans) : n.result = m.result := by
  have hless := n.isHull_result.mono m.isHull_result fun s => (hmem s).mpr
  have hmore := m.isHull_result.mono n.isHull_result fun s => (hmem s).mp
  exact (covers_result fun s hs => h s ((hmem s).mp hs)).eq_of_bounds (covers_result h)
    (Nat.le_antisymm hless.1 hmore.1) (Nat.le_antisymm hmore.2 hless.2)

end Merging

/-- The spans of the tokens and of the reports. -/
def Reading.spans (r : Reading) : List Span :=
  r.tokens.map Token.span ++ r.diagnostics.map Diagnostic.span

/-- The spans of tokens and of reports are spans of parts of the source. -/
private theorem covers_of_mem_spans {names : Namespaces} {source : String} {s : Span}
    (h : s ∈ (tokenize names source).spans) : s.Covers source.toList := by
  obtain ⟨htokens, hreports⟩ := Lexer.covers_drain (Lexer.holds_start names source)
  rcases List.mem_append.mp h with h | h
  · obtain ⟨t, ht, rfl⟩ := List.mem_map.mp h
    exact htokens t ht
  · obtain ⟨d, hd, rfl⟩ := List.mem_map.mp h
    exact hreports d hd

/-- **Merging spans of one source is a matter of the spans alone.** Merging is associative and
idempotent, and two spans can be exchanged unless they start together and disagree about the place.
Spans of tokens and of reports of one source never do: they are merged to one and the same span in
any order, with any bracketing and however often one of them is taken. It starts where the first of
them starts, at the line and the column of this place, ends where the last of them ends, can be cut
out of the source and contains what any of them contains. -/
theorem merge_orderless :
    (∀ a b c : Span, (a.merge b).merge c = a.merge (b.merge c)) ∧ (∀ a : Span, a.merge a = a) ∧
    (∀ a b : Span, (a.start = b.start → a.line = b.line ∧ a.column = b.column) →
      a.merge b = b.merge a) ∧
    ∀ (names : Namespaces) (source : String), source.toList.length < 2 ^ 32 - 1 →
      ∀ (s : Span) (more : List Span), (∀ x ∈ s :: more, x ∈ (tokenize names source).spans) →
        let merged := more.foldl Span.merge s
        (∀ m : Merging, (∀ x, x ∈ m.spans ↔ x ∈ s :: more) → m.result = merged) ∧
          Span.IsHull (s :: more) merged ∧ merged.first.IsPlaceOf source.toList ∧
          (∃ text, merged.snippet? source.toList = .ok text) ∧
          ∀ x ∈ s :: more, ∀ offset, x.contains offset = true → merged.contains offset = true := by
  refine ⟨Span.merge_assoc, Span.merge_self, fun _ _ => Span.merge_comm_of, ?_⟩
  intro names source hshort s more hmem merged
  let m := Merging.andThen (.span s) more
  have hresult : m.result = merged := Merging.result_andThen _ _
  have hspans : m.spans = s :: more := Merging.spans_andThen _ _
  have hcovers : ∀ x ∈ m.spans, x.Covers source.toList := fun x hx =>
    covers_of_mem_spans (hmem x (hspans ▸ hx))
  have hmerged : merged.Covers source.toList := hresult ▸ Merging.covers_result hcovers
  have hhull : Span.IsHull (s :: more) merged := hspans ▸ hresult ▸ m.isHull_result
  refine ⟨fun n hn => ?_, hhull, hmerged.isPlaceOf hshort, hmerged.exists_snippet,
    fun x hx offset => hhull.contains hx⟩
  rw [← hresult]
  exact Merging.result_eq hcovers fun x => by rw [hn, hspans]

/-- A string over two lines that is not closed, with an escape that is reported on the second line:
the end of the input, the escape and the string, from either side and with either bracketing. -/
theorem merge_orderless_open_string :
    let source := "é \"\n\\q"
    let string : Span := ⟨3, 7, 1, 3⟩
    let escape : Span := ⟨5, 7, 2, 1⟩
    let eof : Span := ⟨7, 7, 2, 3⟩
    (∀ x ∈ [eof, escape, string], x ∈ (tokenize .empty source).spans) ∧
      [escape, string].foldl Span.merge eof = string ∧
      (Merging.merge (.span string) (.merge (.span escape) (.span eof))).result = string ∧
      string.first.IsPlaceOf source.toList := by
  intro source string escape eof
  have hmem : ∀ x ∈ [eof, escape, string], x ∈ (tokenize .empty source).spans := by decide +kernel
  obtain ⟨-, -, -, hspans⟩ := merge_orderless
  obtain ⟨hany, -, hplace, -⟩ :=
    hspans .empty source (by decide +kernel) eof [escape, string] hmem
  refine ⟨hmem, by decide, ?_, hplace⟩
  refine (hany (.merge (.span string) (.merge (.span escape) (.span eof))) fun x => ?_).trans
    (by decide)
  simp only [Merging.spans, List.mem_append, List.mem_cons, List.not_mem_nil, or_false]
  tauto

end Lexis
