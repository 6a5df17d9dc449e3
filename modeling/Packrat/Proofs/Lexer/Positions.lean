import Packrat.Proofs.Lexer.Reference

namespace Packrat

open Text (Cursor byteSize)

/-- The tokens of the action are made of its lexeme. -/
def CustomSpec.Marks (s : CustomSpec) : Prop :=
  ∀ l tokens, s.action l = .ok tokens → ∀ t ∈ tokens, ∃ kind payload, t = l.token kind payload

/-- The marker of some part of a text. -/
def Marker.Spans (m : Marker) (source : String) (text : List Char) : Prop :=
  ∃ before taken after, text = before ++ taken ++ after ∧
    m = .span source (byteSize before) (byteSize (before ++ taken)) (1 + before.count '\n')

def Token.Fits (t : Token) : Prop :=
  match t.kind with
  | .number => ∃ x, t.payload = some (.number x)
  | .string | .name => ∃ s, t.payload = some (.text s)
  | .newline | .eof | .literal _ => t.payload = none

/-- The characters of which no token is made. -/
def Config.Drops (c : Config) (ch : Char) : Prop :=
  ch = ' ' ∨ ch = '\t' ∨ ch = '\r' ∨ ch = '\n' ∧ c.newlines = .ignore

theorem Text.byteSize_toList (s : String) : byteSize s.toList = s.utf8ByteSize := by
  have hlen (cs : List Char) : byteSize cs = String.utf8Len cs := by
    induction cs with
    | nil => rfl
    | cons c cs ih => rw [byteSize, ih, String.utf8Len_cons, Nat.add_comm]
  rw [hlen, String.utf8Len_toList]

namespace Place

structure At (place : Place) (text : List Char) : Prop where
  text : text = place.cursor.before.reverse ++ place.cursor.after
  offset : place.cursor.offset = byteSize place.cursor.before.reverse
  line : place.line = 1 + place.cursor.before.reverse.count '\n'

variable {place next : Place} {text taken : List Char}

theorem at_start (source text : String) : (Place.start source text).At text.toList := ⟨rfl, rfl, rfl⟩

theorem At.behind (h : place.At text) (hnext : next.Behind place taken) : next.At text := by
  have hbefore : next.cursor.before.reverse = place.cursor.before.reverse ++ taken := by
    rw [hnext.eq]
    simp [advance, Cursor.pass]
  constructor
  · rw [hbefore, h.text, hnext.after, List.append_assoc]
  · rw [hbefore, hnext.offset, h.offset, Text.byteSize_append]
  · have hline : next.line = place.line + taken.count '\n' := by
      rw [hnext.eq]
      rfl
    rw [hbefore, hline, h.line, List.count_append, Nat.add_assoc]

theorem At.spans (h : place.At text) (hnext : next.Behind place taken) :
    (place.marker next.cursor.offset).Spans place.source text := by
  refine ⟨place.cursor.before.reverse, taken, next.cursor.after, ?_, ?_⟩
  · rw [h.text, hnext.after, List.append_assoc]
  · rw [marker, hnext.offset, h.offset, h.line, Text.byteSize_append]

theorem At.spans_eof (h : place.At text) : place.eof.marker.Spans place.source text := by
  refine ⟨place.cursor.before.reverse, [], place.cursor.after, ?_, ?_⟩
  · rw [h.text, List.append_nil]
  · rw [List.append_nil, eof, marker, h.offset, h.line]

theorem At.offset_eq (h : place.At text) (hend : place.cursor.after = []) :
    place.cursor.offset = byteSize text := by
  rw [h.text, hend, List.append_nil, h.offset]

end Place

namespace Lexer

variable {c : Config} {lexer : Lexer} {place next : Place} {tokens : List Token}

def Marks (lexer : Lexer) : Prop :=
  ∀ s ∈ lexer.specs, ∀ text marker tokens, lexer.perform s.action text marker = .ok tokens →
    ∀ t ∈ tokens, t.marker = marker

theorem action_ne_custom {s : Spec} (hs : s ∈ Spec.builtin c)
    (f : Lexeme → Except Error (List Token)) : s.action ≠ .custom f := by
  simp only [Spec.builtin, List.mem_append, Option.mem_toList, List.mem_singleton] at hs
  rcases hs with (hs | hs) | rfl
  · simp only [Spec.base, List.mem_cons, List.not_mem_nil, or_false] at hs
    rcases hs with rfl | rfl | rfl | rfl | rfl | rfl | rfl | rfl <;> exact fun h => by cases h
  · rw [Spec.action_literal? hs]
    exact fun h => by cases h
  · exact fun h => by cases h

theorem marker_of_perform {action : Action} {text : List Char} {marker : Marker}
    (haction : ∀ f, action ≠ .custom f) (h : lexer.perform action text marker = .ok tokens) :
    ∀ t ∈ tokens, t.marker = marker := by
  cases action with
  | skip =>
    cases h
    exact nofun
  | newline | literal =>
    cases h
    exact List.forall_mem_singleton.2 rfl
  | identifier | hexNumber | decimal | quotedString =>
    rw [perform] at h
    split at h
    · cases h
      exact List.forall_mem_singleton.2 rfl
    · cases h <;> exact List.forall_mem_singleton.2 rfl
  | reject => cases h
  | custom f => exact absurd rfl (haction f)

theorem Serves.marks (h : lexer.Serves c) (hmarks : ∀ s ∈ c.custom, s.Marks) : lexer.Marks := by
  intro s hs text marker tokens hperform t ht
  rw [h.specs, Spec.all_eq, List.mem_append, List.mem_map] at hs
  rcases hs with ⟨s, hs, rfl⟩ | hs
  · obtain ⟨kind, payload, rfl⟩ := hmarks s hs _ _ hperform t ht
    rfl
  · exact marker_of_perform (action_ne_custom hs) hperform t ht

theorem marker_of_step (hmarks : lexer.Marks) (h : lexer.step place = .ok (tokens, next)) :
    ∃ taken, next.Behind place taken ∧ ∀ t ∈ tokens, t.marker = place.marker next.cursor.offset := by
  obtain ⟨s, hs, taken, raw, hnext, hperform, rfl⟩ := exists_behind_of_step h
  exact ⟨taken, hnext, fun t ht => hmarks s hs _ _ _ hperform t (List.mem_filter.1 ht).1⟩

namespace Lists

theorem spans (hmarks : lexer.Marks) (h : lexer.Lists place tokens) {text : List Char}
    (hplace : place.At text) : ∀ t ∈ tokens, t.marker.Spans place.source text := by
  induction h with
  | eof hafter => exact List.forall_mem_singleton.2 hplace.spans_eof
  | @step place next tokens more hafter hstep hmore ih =>
    obtain ⟨taken, hnext, htokens⟩ := marker_of_step hmarks hstep
    refine List.forall_mem_append.2 ⟨fun t ht => ?_, fun t ht => ?_⟩
    · rw [htokens t ht]
      exact hplace.spans hnext
    · rw [← hnext.source]
      exact ih (hplace.behind hnext) t ht

theorem exists_eof (hmarks : lexer.Marks) (h : lexer.Lists place tokens) {text : List Char}
    (hplace : place.At text) :
    ∃ first line, tokens = first ++ [⟨.span place.source (byteSize text) (byteSize text) line, .eof, none⟩] ∧
      ∀ t ∈ first, t.marker.start < t.marker.stop := by
  induction h with
  | @eof place hafter =>
    refine ⟨[], place.line, ?_, nofun⟩
    rw [← hplace.offset_eq hafter]
    rfl
  | @step place next tokens more hafter hstep hmore ih =>
    obtain ⟨taken, hnext, htokens⟩ := marker_of_step hmarks hstep
    obtain ⟨first, line, rfl, hfirst⟩ := ih (hplace.behind hnext)
    refine ⟨tokens ++ first, line, ?_, List.forall_mem_append.2 ⟨fun t ht => ?_, hfirst⟩⟩
    · rw [hnext.source, List.append_assoc]
    · rw [htokens t ht]
      exact hnext.lt

theorem le_start (hmarks : lexer.Marks) (h : lexer.Lists place tokens) :
    ∀ t ∈ tokens, place.cursor.offset ≤ t.marker.start := by
  induction h with
  | eof hafter => exact List.forall_mem_singleton.2 (Nat.le_refl _)
  | @step place next tokens more hafter hstep hmore ih =>
    obtain ⟨taken, hnext, htokens⟩ := marker_of_step hmarks hstep
    refine List.forall_mem_append.2 ⟨fun t ht => ?_, fun t ht => ?_⟩
    · rw [htokens t ht]
      exact Nat.le_refl _
    · exact hnext.lt.le.trans (ih t ht)

theorem isChain (hmarks : lexer.Marks) (h : lexer.Lists place tokens) :
    tokens.IsChain fun s t => s.marker = t.marker ∨ s.marker.stop ≤ t.marker.start := by
  induction h with
  | eof hafter => exact List.isChain_singleton _
  | @step place next tokens more hafter hstep hmore ih =>
    obtain ⟨taken, hnext, htokens⟩ := marker_of_step hmarks hstep
    refine List.isChain_append.2 ⟨?_, ih, fun s hs t ht => .inr ?_⟩
    · refine List.Pairwise.isChain (List.pairwise_of_forall_mem_list fun s hs t ht => .inl ?_)
      rw [htokens s hs, htokens t ht]
    · rw [htokens s (List.mem_of_mem_getLast? hs)]
      exact le_start hmarks hmore t (List.mem_of_mem_head? ht)

end Lists

end Lexer

namespace Direct

variable {c : Config} {rule : Rule} {text : List Char} {marker : Marker}

theorem forall_mem_of_run? {p : Char → Bool} {cs : List Char} (h : run? p cs = some text) :
    ∀ ch ∈ text, p ch = true := by
  cases cs with
  | nil => cases h
  | cons d cs =>
    rw [run?] at h
    split at h
    · next hd =>
      cases h
      exact List.forall_mem_cons.2 ⟨hd, fun ch => List.mem_takeWhile_imp⟩
    · cases h

/-- A rule drops nothing but blanks. A token that it gives has its marker and is not the end. -/
structure Rule.Keeps (c : Config) (rule : Rule) : Prop where
  dropped {cs text : List Char} {marker : Marker} : rule.read? cs = some text →
    rule.token? text marker = .ok none → ∀ ch ∈ text, c.Drops ch
  given {text : List Char} {marker : Marker} {t : Token} : rule.token? text marker = .ok (some t) →
    t.marker = marker ∧ t.kind ≠ .eof ∧ t.Fits

theorem Rule.keeps_blanks : Rule.blanks.Keeps c where
  dropped hread _ ch hch := by
    have hblank := forall_mem_of_run? hread ch hch
    simp only [isBlank, Bool.or_eq_true, beq_iff_eq] at hblank
    unfold Config.Drops
    tauto
  given h := nomatch h

theorem Rule.keeps_lineBreaks : (Rule.lineBreaks c.newlines).Keeps c where
  dropped {cs text marker} hread htoken ch hch := by
    have hbreak := forall_mem_of_run? hread ch hch
    refine .inr (.inr (.inr ⟨eq_of_beq hbreak, ?_⟩))
    by_contra hne
    dsimp only [lineBreaks] at htoken
    rw [if_neg hne] at htoken
    cases htoken
  given {text marker t} h := by
    dsimp only [lineBreaks] at h
    split at h
    · cases h
    · cases h
      exact ⟨rfl, nofun, rfl⟩

theorem Rule.keeps_word (keywords : List String) : (Rule.word keywords).Keeps c where
  dropped _ h := nomatch h
  given {text marker t} h := by
    dsimp only [word] at h
    split at h
    · cases h
      exact ⟨rfl, nofun, rfl⟩
    · cases h
      exact ⟨rfl, nofun, _, rfl⟩

theorem Rule.keeps_ofValue {kind : Kind} {name : String} {value? : List Char → Option Payload}
    {read? : List Char → Option (List Char)} (hkind : kind ≠ .eof)
    (hvalue : ∀ text value, value? text = some value →
      ∀ marker, Token.Fits ⟨marker, kind, some value⟩) :
    (Rule.ofValue kind name value? read?).Keeps c where
  dropped {cs text marker} hread h := by
    dsimp only [ofValue] at h
    split at h
    · cases h
    · cases h
  given {text marker t} h := by
    dsimp only [ofValue] at h
    split at h
    · next value htext =>
      cases h
      exact ⟨rfl, hkind, hvalue text value htext marker⟩
    · cases h

theorem Rule.keeps_hexNumber : Rule.hexNumber.Keeps c :=
  keeps_ofValue nofun fun text value h marker => by
    obtain ⟨x, -, rfl⟩ := Option.map_eq_some_iff.1 h
    exact ⟨x, rfl⟩

theorem Rule.keeps_decimal (read? : List Char → Option (List Char)) : (Rule.decimal read?).Keeps c :=
  keeps_ofValue nofun fun text value h marker => by
    obtain ⟨x, -, rfl⟩ := Option.map_eq_some_iff.1 h
    exact ⟨x, rfl⟩

theorem Rule.keeps_quoted (q : Char) : (Rule.quoted q).Keeps c :=
  keeps_ofValue nofun fun text value h marker => by
    obtain ⟨s, -, rfl⟩ := Option.map_eq_some_iff.1 h
    exact ⟨_, rfl⟩

theorem Rule.keeps_literal (literals : List String) : (Rule.literal literals).Keeps c where
  dropped _ h := nomatch h
  given h := by
    cases h
    exact ⟨rfl, nofun, rfl⟩

theorem Rule.keeps_of_mem (h : rule ∈ rules c) : rule.Keeps c := by
  simp only [rules, List.mem_cons, List.not_mem_nil, or_false] at h
  rcases h with rfl | rfl | rfl | rfl | rfl | rfl | rfl | rfl | rfl
  · exact keeps_blanks
  · exact keeps_lineBreaks
  · exact keeps_word _
  · exact keeps_hexNumber
  · exact keeps_decimal _
  · exact keeps_decimal _
  · exact keeps_quoted _
  · exact keeps_quoted _
  · exact keeps_literal _

theorem keeps_item {ch : Char} {cs : List Char} {t : Option Token}
    (h : (item c ch cs).2 marker = .ok t) :
    (∀ x ∈ t, x.marker = marker ∧ x.kind ≠ .eof ∧ x.Fits) ∧
      (t = none → ∀ d ∈ (item c ch cs).1, c.Drops d) := by
  unfold item at h ⊢
  split at h
  · next rule text hfirst =>
    obtain ⟨rule', hrule', hread⟩ := List.exists_of_findSome?_eq_some hfirst
    obtain ⟨text', htext', heq⟩ := Option.map_eq_some_iff.1 hread
    cases heq
    have hkeeps := Rule.keeps_of_mem hrule'
    refine ⟨fun x hx => ?_, fun hnone => ?_⟩
    · cases hx
      exact hkeeps.given h
    · subst hnone
      exact hkeeps.dropped htext' h
  · cases h

end Direct

namespace Lexer

open Direct

variable {c : Config} {lexer : Lexer} {place next : Place} {tokens : List Token}

theorem item_of_step (h : ofConfig c = .ok lexer) (hcustom : c.custom = [])
    (hafter : place.cursor.after ≠ []) (hstep : lexer.step place = .ok (tokens, next)) :
    ∃ taken t, next.Behind place taken ∧ tokens = t.toList ∧
      (∀ x ∈ t, x.marker = place.marker next.cursor.offset ∧ x.kind ≠ .eof ∧ x.Fits) ∧
      (t = none → ∀ ch ∈ taken, c.Drops ch) := by
  obtain ⟨ch, cs, hcons⟩ := List.exists_cons_of_ne_nil hafter
  obtain ⟨hne, rest, htext, hitem⟩ := step_eq_item h hcustom hcons
  rw [hitem] at hstep
  cases htoken : (item c ch cs).2
    (place.marker (place.cursor.offset + byteSize (item c ch cs).1)) with
  | error e =>
    rw [htoken] at hstep
    cases hstep
  | ok t =>
    rw [htoken] at hstep
    cases hstep
    obtain ⟨hgiven, hdropped⟩ := keeps_item htoken
    exact ⟨_, t, ⟨hne, hcons.trans htext, rfl⟩, rfl, hgiven, hdropped⟩

namespace Lists

theorem ne_nil (h : lexer.Lists place tokens) : tokens ≠ [] := by
  induction h with
  | eof hafter => exact List.cons_ne_nil _ _
  | step hafter hstep hmore ih => exact List.append_ne_nil_of_right_ne_nil _ ih

theorem fits (hlexer : ofConfig c = .ok lexer) (hcustom : c.custom = [])
    (h : lexer.Lists place tokens) : ∀ t ∈ tokens, t.Fits := by
  induction h with
  | eof hafter => exact List.forall_mem_singleton.2 rfl
  | step hafter hstep hmore ih =>
    obtain ⟨taken, t, hnext, rfl, hgiven, -⟩ := item_of_step hlexer hcustom hafter hstep
    refine List.forall_mem_append.2 ⟨fun x hx => ?_, ih⟩
    exact (hgiven x (Option.mem_toList.1 hx)).2.2

theorem kind_ne_eof (hlexer : ofConfig c = .ok lexer) (hcustom : c.custom = [])
    (h : lexer.Lists place tokens) : ∀ t ∈ tokens.dropLast, t.kind ≠ .eof := by
  induction h with
  | eof hafter => exact nofun
  | step hafter hstep hmore ih =>
    obtain ⟨taken, t, hnext, rfl, hgiven, -⟩ := item_of_step hlexer hcustom hafter hstep
    rw [List.dropLast_append_of_ne_nil hmore.ne_nil]
    refine List.forall_mem_append.2 ⟨fun x hx => ?_, ih⟩
    exact (hgiven x (Option.mem_toList.1 hx)).2.1

theorem pairwise (hlexer : ofConfig c = .ok lexer) (hmarks : lexer.Marks) (hcustom : c.custom = [])
    (h : lexer.Lists place tokens) : tokens.Pairwise fun s t => s.marker.stop ≤ t.marker.start := by
  induction h with
  | eof hafter => exact List.pairwise_singleton _ _
  | step hafter hstep hmore ih =>
    obtain ⟨taken, t, hnext, rfl, hgiven, -⟩ := item_of_step hlexer hcustom hafter hstep
    refine List.pairwise_append.2 ⟨?_, ih, fun s hs t ht => ?_⟩
    · cases t with
      | none => exact List.Pairwise.nil
      | some t => exact List.pairwise_singleton _ _
    · rw [(hgiven s (Option.mem_toList.1 hs)).1]
      exact le_start hmarks hmore t ht

theorem drops_of_not_covered (hlexer : ofConfig c = .ok lexer) (hcustom : c.custom = [])
    (h : lexer.Lists place tokens) {before behind : List Char} {ch : Char} {i : Nat}
    (hafter : place.cursor.after = before ++ ch :: behind)
    (hle : place.cursor.offset + byteSize before ≤ i)
    (hlt : i < place.cursor.offset + byteSize before + ch.utf8Size)
    (hcovered : ∀ t ∈ tokens, ¬(t.marker.start ≤ i ∧ i < t.marker.stop)) : c.Drops ch := by
  induction h generalizing before with
  | eof hend =>
    rw [hend] at hafter
    simp at hafter
  | @step place next tokens more hne hstep hmore ih =>
    obtain ⟨taken, t, hnext, rfl, hgiven, hdropped⟩ := item_of_step hlexer hcustom hne hstep
    obtain ⟨hfirst, hrest⟩ := List.forall_mem_append.1 hcovered
    rw [hnext.after] at hafter
    have hoffset := hnext.offset
    rcases List.append_eq_append_iff.1 hafter with
      ⟨more, rfl, hbehind⟩ | ⟨_ | ⟨d, more⟩, rfl, hbehind⟩
    · -- The character is behind the text of this step, as in the next case.
      rw [Text.byteSize_append] at hle hlt
      exact ih hbehind (by omega) (by omega) hrest
    · rw [List.append_nil] at hoffset
      exact @ih [] hbehind.symm (by simp only [byteSize]; omega) (by simp only [byteSize]; omega) hrest
    · obtain ⟨rfl, -⟩ := List.cons.inj hbehind
      cases t with
      | none => exact hdropped rfl ch (by simp)
      | some t =>
        have ht := (hgiven t rfl).1
        simp only [Text.byteSize_append, byteSize] at hoffset
        refine absurd ?_ (hfirst t (by simp))
        rw [ht]
        exact ⟨by simp only [Place.marker, Marker.span]; omega,
          by simp only [Place.marker, Marker.span]; omega⟩

end Lists

/-- Each token has the span and the line of some part of the source, behind the part before it or the
same one. Only the end has an empty span. Without specs of one's own the parts are apart, and what is
between them is dropped. With such specs the patterns may be any, and so may the way they are read. -/
theorem list_positions (h : lexer.Serves c) (hmarks : ∀ s ∈ c.custom, s.Marks)
    {source text : String} (hlist : lexer.list source text = .ok tokens) :
    (∀ t ∈ tokens, t.marker.Spans source text.toList) ∧
    (∃ first line,
      tokens = first ++ [⟨.span source text.utf8ByteSize text.utf8ByteSize line, .eof, none⟩] ∧
      ∀ t ∈ first, t.marker.start < t.marker.stop) ∧
    (tokens.IsChain fun s t => s.marker = t.marker ∨ s.marker.stop ≤ t.marker.start) ∧
    (c.custom = [] → ofConfig c = .ok lexer →
      (tokens.Pairwise fun s t => s.marker.stop ≤ t.marker.start) ∧
      (∀ t ∈ tokens.dropLast, t.kind ≠ .eof) ∧
      ∀ before ch behind i, text.toList = before ++ ch :: behind →
        byteSize before ≤ i → i < byteSize before + ch.utf8Size →
        (∀ t ∈ tokens, ¬(t.marker.start ≤ i ∧ i < t.marker.stop)) → c.Drops ch) := by
  have hmarks := h.marks hmarks
  have hlists := lists_of_list hlist
  have hplace := Place.at_start source text
  refine ⟨hlists.spans hmarks hplace, ?_, hlists.isChain hmarks, fun hcustom hlexer => ⟨?_, ?_, ?_⟩⟩
  · rw [← Text.byteSize_toList]
    exact hlists.exists_eof hmarks hplace
  · exact hlists.pairwise hlexer hmarks hcustom
  · exact hlists.kind_ne_eof hlexer hcustom
  · intro before ch behind i htext hle hlt hcovered
    have hoffset : (Place.start source text).cursor.offset = 0 := rfl
    exact hlists.drops_of_not_covered hlexer hcustom htext (by omega) (by omega) hcovered

theorem list_positions_twice :
    ∃ lexer tokens,
      ofConfig { Config.bare with
        custom := [⟨"@[a-z]+", [.name], fun l => pure [l.token .name none, l.token .name none]⟩] } =
          .ok lexer ∧
      lexer.list "" "x @b\n'é\nd' 2" = .ok tokens ∧ tokens.length = 7 ∧
      (∀ t ∈ tokens, t.marker.Spans "" "x @b\n'é\nd' 2".toList) ∧
      tokens.IsChain fun s t => s.marker = t.marker ∨ s.marker.stop ≤ t.marker.start := by
  obtain ⟨lexer, h, tokens, hlist, hlength⟩ : ∃ lexer,
      ofConfig { Config.bare with
        custom := [⟨"@[a-z]+", [.name], fun l => pure [l.token .name none, l.token .name none]⟩] } =
          .ok lexer ∧
      ∃ tokens, lexer.list "" "x @b\n'é\nd' 2" = .ok tokens ∧ tokens.length = 7 := by
    decide +kernel
  have hmarks := list_positions (serves_of_ofConfig h)
    (List.forall_mem_singleton.2 fun l tokens htokens t ht => by
      cases htokens
      exact ⟨.name, none, by simpa using ht⟩) hlist
  exact ⟨lexer, tokens, h, hlist, hlength, hmarks.1, hmarks.2.2.1⟩

end Lexer

end Packrat
