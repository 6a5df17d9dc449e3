import Packrat.Proofs.Lexer.Failures
import Packrat.Proofs.Parser.Plain
import Packrat.Proofs.Parser.Required

namespace Packrat

open Text (byteSize)

variable {V : Type}

/-- Errors of the reducer are about what it covers, or about no place. -/
def Rule.Blames (r : Rule V) : Prop :=
  ∀ f, r.reducer = some f → ∀ context values e, f context values = .error e →
    e.marker = none ∨ e.marker = some context.marker

namespace Text

theorem byteSize_pos {cs : List Char} (h : cs ≠ []) : 0 < byteSize cs := by
  cases cs with
  | nil => exact absurd rfl h
  | cons c cs => exact Nat.add_pos_left c.utf8Size_pos _

theorem isPrefix_of_byteSize_le {text first second : List Char} (hfirst : first <+: text)
    (hsecond : second <+: text) (hle : byteSize first ≤ byteSize second) : first <+: second := by
  rcases List.prefix_or_prefix_of_prefix hfirst hsecond with h | ⟨rest, rfl⟩
  · exact h
  · have hrest : rest = [] := by
      by_contra hne
      have := byteSize_pos hne
      rw [byteSize_append] at hle
      omega
    simp [hrest]

end Text

namespace Marker.Spans

variable {m first last : Marker} {source : String} {text : List Char}

theorem start_le_stop (h : m.Spans source text) : m.start ≤ m.stop := by
  obtain ⟨before, taken, after, -, rfl⟩ := h
  simp [span, Text.byteSize_append]

theorem stop_le (h : m.Spans source text) : m.stop ≤ byteSize text := by
  obtain ⟨before, taken, after, rfl, rfl⟩ := h
  simp [span, Text.byteSize_append]

theorem through (hfirst : first.Spans source text) (hlast : last.Spans source text)
    (hle : first.start ≤ last.stop) : (first.through last).Spans source text := by
  obtain ⟨before, taken, after, htext, rfl⟩ := hfirst
  obtain ⟨before', taken', after', htext', rfl⟩ := hlast
  have hbefore : before <+: text := ⟨taken ++ after, by rw [htext, List.append_assoc]⟩
  obtain ⟨between, hbetween⟩ := Text.isPrefix_of_byteSize_le hbefore ⟨after', htext'.symm⟩ hle
  refine ⟨before, between, after', by rw [hbetween, htext'], ?_⟩
  rw [hbetween]
  rfl

end Marker.Spans

theorem Lexer.Lists.pairwise_start {lexer : Lexer} {place : Place} {tokens : List Token}
    (hmarks : lexer.Marks) (h : lexer.Lists place tokens) :
    tokens.Pairwise fun s t => s.marker.start ≤ t.marker.start := by
  induction h with
  | eof hafter => exact List.pairwise_singleton _ _
  | @step place next tokens more hafter hstep hmore ih =>
    obtain ⟨taken, hnext, htokens⟩ := marker_of_step hmarks hstep
    refine List.pairwise_append.2 ⟨?_, ih, fun s hs t ht => ?_⟩
    · refine List.pairwise_of_forall_mem_list fun s hs t ht => ?_
      rw [htokens s hs, htokens t ht]
    · rw [htokens s hs]
      exact hnext.lt.le.trans (hmore.le_start hmarks t ht)

namespace Parser

namespace Problem

structure Located (p : Problem V) (source : String) (text : List Char) : Prop where
  pos : 0 < p.tokens.size
  spans (t : Token) : t ∈ p.tokens.toList → t.marker.Spans source text
  pairwise_start : p.tokens.toList.Pairwise fun s t => s.marker.start ≤ t.marker.start

variable {p : Problem V} {source : String} {text : List Char}

theorem exists_tokenAt (hpos : 0 < p.tokens.size) (place : Nat) :
    ∃ t, p.tokenAt place = some t := by
  have hlt : min place (p.tokens.size - 1) < p.tokens.size := by omega
  exact ⟨_, Array.getElem?_eq_getElem hlt⟩

theorem mem_of_tokenAt {place : Nat} {t : Token} (h : p.tokenAt place = some t) :
    t ∈ p.tokens.toList := by
  rw [tokenAt, ← Array.getElem?_toList] at h
  exact List.mem_of_getElem? h

namespace Located

variable (h : p.Located source text)

include h

theorem start_le_start {i j : Nat} (hle : i ≤ j) {s t : Token} (hs : p.tokenAt i = some s)
    (ht : p.tokenAt j = some t) : s.marker.start ≤ t.marker.start := by
  rw [tokenAt, ← Array.getElem?_toList] at hs ht
  obtain ⟨hi, rfl⟩ := List.getElem?_eq_some_iff.1 hs
  obtain ⟨hj, rfl⟩ := List.getElem?_eq_some_iff.1 ht
  rcases Nat.lt_or_eq_of_le (min_le_min_right (p.tokens.size - 1) hle) with hlt | heq
  · exact List.pairwise_iff_getElem.1 h.pairwise_start _ _ hi hj hlt
  · simp only [heq, Nat.le_refl]

theorem spans_marker (start stop : Nat) : (p.marker start stop).Spans source text := by
  obtain ⟨first, hfirst⟩ := exists_tokenAt h.pos start
  obtain ⟨last, hlast⟩ := exists_tokenAt h.pos (stop - 1)
  have hspans := h.spans first (mem_of_tokenAt hfirst)
  have hspans' := h.spans last (mem_of_tokenAt hlast)
  simp only [marker, hfirst, hlast]
  split
  · next hlt =>
    apply hspans.through hspans'
    exact (h.start_le_start (Nat.le_sub_one_of_lt hlt) hfirst hlast).trans hspans'.start_le_stop
  · exact hspans

end Located

end Problem

/-- The error comes from an action or a reducer of one's own. -/
inductive Raised (c : Config) (g : Grammar V) : Error → Prop
  | action {s : CustomSpec} (hs : s ∈ c.custom) {l : Lexeme} {e : Error}
      (h : s.action l = .error e) : Raised c g e
  | reducer {r : Rule V} (hr : r ∈ g.rules) {f : Reducer V} (hf : r.reducer = some f)
      {context : Context} {values : List V} {e : Error} (h : f context values = .error e) :
      Raised c g e

/-- The error quotes the source, or another one that it was raised with. What it marks is a part of
the source. -/
structure Inside (c : Config) (g : Grammar V) (source : Source) (e : Error) : Prop where
  quotes : e.source = some source ∨ e.source ≠ none ∧ Raised c g e
  spans (m : Marker) : e.marker = some m → m.Spans source.name source.content.toList

variable {c : Config} {g : Grammar V} {lexer : Lexer} {p : Parser V} {source : Source} {e : Error}
  {tokens : List Token}

theorem inside_withSource
    (hspans : ∀ m, e.marker = some m → m.Spans source.name source.content.toList)
    (hsource : e.source = none ∨ Raised c g e) : Inside c g source (e.withSource source) := by
  refine ⟨?_, hspans⟩
  cases hown : e.source with
  | none => exact .inl (by simp [Error.withSource, hown])
  | some own =>
    have hsame : e.withSource source = e := by
      cases e
      simp_all [Error.withSource]
    rw [hsame]
    exact .inr ⟨by simp [hown], hsource.resolve_left (by simp [hown])⟩

theorem list_of_tokens (h : p.tokens source = .ok tokens) :
    p.lexer.list source.name source.content = .ok tokens := by
  unfold Parser.tokens at h
  cases hlist : p.lexer.list source.name source.content with
  | ok tokens =>
    rw [hlist] at h
    exact h
  | error e =>
    rw [hlist] at h
    cases h

theorem length_pos_of_tokens (h : p.tokens source = .ok tokens) : 0 < tokens.length :=
  List.length_pos_iff.2 (Lexer.lists_of_list (list_of_tokens h)).ne_nil

theorem exists_list_of_tokens (h : p.tokens source = .error e) :
    ∃ raw, p.lexer.list source.name source.content = .error raw ∧ e = raw.withSource source := by
  unfold Parser.tokens at h
  cases hlist : p.lexer.list source.name source.content with
  | ok tokens =>
    rw [hlist] at h
    cases h
  | error raw =>
    rw [hlist] at h
    cases h
    exact ⟨raw, rfl, rfl⟩

section

variable (hserves : lexer.Serves c) (hp : ofGrammar g lexer = .ok p)

include hp

theorem inside_of_explains (hreducers : ∀ r ∈ g.rules, r.Blames)
    (hlocated : (Problem.mk p.grammar tokens.toArray).Located source.name source.content.toList)
    (h : (Problem.mk p.grammar tokens.toArray).Explains g e) :
    Inside c g source (e.withSource source) := by
  obtain ⟨d, hd, rfl⟩ := ofGrammar_eq_ok_iff.1 hp
  rcases h with hrejects | ⟨rule, slot, furthest⟩
  · cases hrejects with
    | @reducer rule hrule f hf start stop values e hresult =>
      obtain ⟨r, hr, hcr⟩ := (Grammar.compilesTo_of_compile hd).exists_rule hrule
      have hf : r.reducer = some f := hcr.reducer.symm.trans hf
      refine inside_withSource (fun m hm => ?_) (.inr (.reducer hr hf hresult))
      rcases hreducers r hr f hf _ _ _ hresult with hmarker | hmarker
      · cases hmarker.symm.trans hm
      · cases hmarker.symm.trans hm
        exact hlocated.spans_marker start stop
    | nothing i start stop =>
      refine inside_withSource (fun m hm => ?_) (.inl rfl)
      cases hm
      exact hlocated.spans_marker start stop
  · refine inside_withSource (fun m hm => ?_) (.inl rfl)
    obtain ⟨t, ht, rfl⟩ := Option.map_eq_some_iff.1 hm
    exact hlocated.spans t (Problem.mem_of_tokenAt ht)

include hserves

theorem located_of_tokens (hmarks : ∀ s ∈ c.custom, s.Marks) (h : p.tokens source = .ok tokens) :
    (Problem.mk p.grammar tokens.toArray).Located source.name source.content.toList := by
  obtain ⟨d, -, rfl⟩ := ofGrammar_eq_ok_iff.1 hp
  have hlists := Lexer.lists_of_list (list_of_tokens h)
  have hmarks := hserves.marks hmarks
  exact {
    pos := length_pos_of_tokens h
    spans := hlists.spans hmarks (Place.at_start _ _)
    pairwise_start := hlists.pairwise_start hmarks }

theorem inside_of_tokens (hactions : ∀ s ∈ c.custom, s.Blames) (h : p.tokens source = .error e) :
    Inside c g source e := by
  obtain ⟨d, -, rfl⟩ := ofGrammar_eq_ok_iff.1 hp
  obtain ⟨raw, hlist, rfl⟩ := exists_list_of_tokens h
  obtain ⟨hspans, hsource⟩ := Lexer.error_of_list hserves hactions hlist
  exact inside_withSource hspans (hsource.imp_right fun ⟨s, hs, l, hl⟩ => .action hs hl)

variable [OfToken V] (hmarks : ∀ s ∈ c.custom, s.Marks) (hactions : ∀ s ∈ c.custom, s.Blames)
  (hreducers : ∀ r ∈ g.rules, r.Blames)

include hmarks hactions hreducers

theorem inside_of_parse (h : p.parse source = .error e) : Inside c g source e := by
  cases htokens : p.tokens source with
  | error e' =>
    rw [parse_eq_error htokens] at h
    cases h
    exact inside_of_tokens hserves hp hactions htokens
  | ok tokens =>
    rcases broken_of_error htokens h with rfl | ⟨raw, hrun, rfl⟩
    · exact ⟨.inl rfl, nofun⟩
    · obtain ⟨d, hd, rfl⟩ := ofGrammar_eq_ok_iff.1 hp
      exact inside_of_explains hp hreducers (located_of_tokens hserves hp hmarks htokens)
        (Problem.explains_of_run (Grammar.compilesTo_of_compile hd) hrun)

theorem inside_of_parseValue (h : p.parseValue source = .error e) : Inside c g source e := by
  rcases bind_eq_error.1 h with hparse | ⟨outcome, hparse, hvalue⟩
  · exact inside_of_parse hserves hp hmarks hactions hreducers hparse
  · cases outcome with
    | matched value next => cases hvalue
    | failed t =>
      cases hvalue
      refine ⟨.inl rfl, fun m hm => ?_⟩
      cases hm
      obtain ⟨tokens, htokens, -, ht⟩ := missed_of_failed hparse
      exact (located_of_tokens hserves hp hmarks htokens).spans t (Problem.mem_of_tokenAt ht)

end

/-- Every error of a parser quotes the source, unless an action or a reducer of one's own raised it
with another one to quote. What it marks is a part of the source: the name is the source's, the span
goes over whole characters and the line is that of its first character. So the label of a report is
inside of the source. -/
theorem error_inside (hserves : lexer.Serves c) (hp : ofGrammar g lexer = .ok p) [OfToken V]
    (hmarks : ∀ s ∈ c.custom, s.Marks) (hactions : ∀ s ∈ c.custom, s.Blames)
    (hreducers : ∀ r ∈ g.rules, r.Blames) (source : Source) (e : Error)
    (h : p.tokens source = .error e ∨ p.parse source = .error e ∨ p.parseValue source = .error e) :
    (e.source = some source ∨ e.source ≠ none ∧ Raised c g e) ∧
      (∀ m, e.marker = some m → m.Spans source.name source.content.toList) ∧
      ∀ label offset length, e.label? = some (label, offset, length) →
        ∃ m, e.marker = some m ∧ m.start ≤ m.stop ∧ offset = m.start ∧ offset + length = m.stop ∧
          m.stop ≤ source.content.utf8ByteSize := by
  have hinside : Inside c g source e := by
    rcases h with h | h | h
    · exact inside_of_tokens hserves hp hactions h
    · exact inside_of_parse hserves hp hmarks hactions hreducers h
    · exact inside_of_parseValue hserves hp hmarks hactions hreducers h
  refine ⟨hinside.quotes, hinside.spans, fun label offset length hlabel => ?_⟩
  unfold Error.label? at hlabel
  split at hlabel
  · next m _ hm =>
    cases hlabel
    have hspans := hinside.spans m hm
    have hle := hspans.start_le_stop
    refine ⟨m, hm, hle, rfl, Nat.add_sub_cancel' hle, ?_⟩
    rw [← Text.byteSize_toList]
    exact hspans.stop_le
  · cases hlabel

def refusing : Config :=
  { Config.bare with
    newlines := .ignore
    custom := [⟨"@", [], fun l => throw (.semantic "refused" l.marker)⟩] }

def refused : Grammar Value where
  start := "pair"
  rules := [{
    lhs := "pair"
    rhs := [.terminal .string, .terminal .name]
    reducer := some fun context _ => throw (context.error "refused") }]

theorem source_eq_none_of_raised {e : Error} (h : Raised refusing refused e) : e.source = none := by
  cases h with
  | action hs h =>
    cases List.mem_singleton.1 hs
    cases h
    rfl
  | reducer hr hf h =>
    cases List.mem_singleton.1 hr
    cases hf
    cases h
    rfl

theorem error_inside_refused :
    ∃ lexer, Lexer.ofConfig refusing = .ok lexer ∧ ∃ p, ofGrammar refused lexer = .ok p ∧
      ∃ e, p.parse ⟨"f", " 'é'\ny"⟩ = .error e ∧ e.source = some ⟨"f", " 'é'\ny"⟩ ∧
        e.marker = some (.span "f" 1 7 1) ∧
          (Marker.span "f" 1 7 1).Spans "f" " 'é'\ny".toList := by
  obtain ⟨lexer, hlexer, p, hp, hplain⟩ :
      ∃ lexer, Lexer.ofConfig refusing = .ok lexer ∧ ∃ p, ofGrammar refused lexer = .ok p ∧
        ((p.plain ⟨"f", " 'é'\ny"⟩).bind errorOf?).map (·.marker) =
          some (some (.span "f" 1 7 1)) := by
    decide +kernel
  have hacyclic : refused.Acyclic := Grammar.acyclic_of_descends (fun _ => 0) (by decide)
  obtain ⟨e, hparse, hmarker⟩ := error_of_plain hp hacyclic hplain
  obtain ⟨hsource, hspans, -⟩ := error_inside (Lexer.serves_of_ofConfig hlexer) hp
    (List.forall_mem_singleton.2 fun l tokens h => nomatch h)
    (List.forall_mem_singleton.2 fun l e h => by
      cases h
      exact .inr rfl)
    (List.forall_mem_singleton.2 fun f hf context values e h => by
      cases hf
      cases h
      exact .inr rfl)
    _ _ (.inr (.inl hparse))
  refine ⟨lexer, hlexer, _, hp, _, hparse, hsource.resolve_right ?_, hmarker, hspans _ hmarker⟩
  exact fun ⟨hne, hraised⟩ => hne (source_eq_none_of_raised hraised)

def signed : Grammar Value where
  start := "name"
  rules := [{
    lhs := "name"
    rhs := [.terminal .name]
    reducer := some fun context _ => throw ((context.error "refused").withSource ⟨"own", "x"⟩) }]

/-- The source that an error came with stays, though the error is about the place of the reduction. -/
theorem source_signed :
    ∃ lexer, Lexer.ofConfig .bare = .ok lexer ∧ ∃ p, ofGrammar signed lexer = .ok p ∧
      (∀ r ∈ signed.rules, r.Blames) ∧ ∃ e, p.parse ⟨"f", "y"⟩ = .error e ∧
        e.marker = some (.span "f" 0 1 1) ∧ e.source = some ⟨"own", "x"⟩ ∧
          e.source ≠ some ⟨"f", "y"⟩ := by
  obtain ⟨lexer, hlexer, p, hp, hplain⟩ :
      ∃ lexer, Lexer.ofConfig .bare = .ok lexer ∧ ∃ p, ofGrammar signed lexer = .ok p ∧
        ((p.plain ⟨"f", "y"⟩).bind errorOf?).map (fun e => (e.marker, e.source)) =
          some (some (.span "f" 0 1 1), some ⟨"own", "x"⟩) := by
    decide +kernel
  have hacyclic : signed.Acyclic := Grammar.acyclic_of_descends (fun _ => 0) (by decide)
  obtain ⟨e, hparse, he⟩ := error_of_plain hp hacyclic hplain
  obtain ⟨hmarker, hsource⟩ := Prod.mk.inj he
  refine ⟨lexer, hlexer, p, hp, ?_, e, hparse, hmarker, hsource, ?_⟩
  · refine List.forall_mem_singleton.2 fun f hf context values e h => ?_
    cases hf
    cases h
    exact .inr rfl
  · rw [hsource]
    decide

end Parser

end Packrat
