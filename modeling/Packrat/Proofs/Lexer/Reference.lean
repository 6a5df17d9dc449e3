import Packrat.Proofs.Lexer.Accepted
import Packrat.Proofs.Lexer.Literals
import Packrat.Proofs.Lexer.Runs

namespace Packrat

open Text (Cursor byteSize)

namespace Lexer

open Pattern Direct

variable {c : Config} {lexer : Lexer}

def Gives (lexer : Lexer) (action : Action) (rule : Direct.Rule) : Prop :=
  ∀ text marker, (lexer.perform action text marker).map (·.filter lexer.keeps) =
    (rule.token? text marker).map Option.toList

theorem gives_blanks : lexer.Gives .skip .blanks := fun _ _ => rfl

theorem gives_lineBreaks : lexer.Gives .newline (.lineBreaks lexer.newlines) := by
  intro text marker
  cases hnewlines : lexer.newlines with
  | keep => simp [perform, keeps, hnewlines, Direct.Rule.lineBreaks, Except.map, pure, Except.pure]
  | ignore => simp [perform, keeps, hnewlines, Direct.Rule.lineBreaks, Except.map, pure, Except.pure]

theorem gives_word : lexer.Gives .identifier (.word lexer.keywords) := by
  intro text marker
  rw [perform, Direct.Rule.word]
  by_cases hword : String.ofList text ∈ lexer.keywords
  · simp [hword, Except.map, pure, Except.pure, keeps]
  · simp [hword, Except.map, pure, Except.pure, keeps]

theorem gives_ofValue {action : Action} {kind : Kind} {name : String}
    {value? : List Char → Option Payload} (hkind : kind ≠ .newline)
    (hsome : ∀ {text value} marker, value? text = some value →
      lexer.perform action text marker = pure [⟨marker, kind, some value⟩])
    (hnone : ∀ {text} marker, value? text = none →
      lexer.perform action text marker = throw {
        cause := .invalidLiteral name (String.ofList text)
        marker := some marker })
    (read? : List Char → Option (List Char)) :
    lexer.Gives action (.ofValue kind name value? read?) := by
  intro text marker
  dsimp only [Direct.Rule.ofValue]
  cases htext : value? text with
  | none =>
    rw [hnone marker htext]
    rfl
  | some value =>
    have hkeeps : lexer.keeps ⟨marker, kind, some value⟩ = true := by simp [keeps, hkind]
    rw [hsome marker htext]
    simp [Except.map, pure, Except.pure, hkeeps]

theorem gives_hexNumber : lexer.Gives .hexNumber .hexNumber := by
  refine gives_ofValue (by decide) (fun marker htext => ?_) (fun marker htext => ?_) _
  · obtain ⟨x, hx, rfl⟩ := Option.map_eq_some_iff.1 htext
    rw [perform, hx]
  · rw [perform, Option.map_eq_none_iff.1 htext]

theorem gives_decimal (read? : List Char → Option (List Char)) :
    lexer.Gives .decimal (.decimal read?) := by
  refine gives_ofValue (by decide) (fun marker htext => ?_) (fun marker htext => ?_) _
  · obtain ⟨x, hx, rfl⟩ := Option.map_eq_some_iff.1 htext
    rw [perform, hx]
  · rw [perform, Option.map_eq_none_iff.1 htext]

theorem gives_quoted (q : Char) : lexer.Gives .quotedString (.quoted q) := by
  refine gives_ofValue (by decide) (fun marker htext => ?_) (fun marker htext => ?_) _
  · obtain ⟨value, hvalue, rfl⟩ := Option.map_eq_some_iff.1 htext
    rw [perform, hvalue]
  · rw [perform, Option.map_eq_none_iff.1 htext]

theorem gives_literal (literals : List String) : lexer.Gives .literal (.literal literals) := by
  intro text marker
  simp [perform, Direct.Rule.literal, Except.map, pure, Except.pure, keeps]

theorem firstOf?_cons {s : Spec} {q : Pattern} (hread : read s.pattern.toList = .ok q)
    (specs : List Spec) (p : Cursor) :
    firstOf? (s :: specs) p =
      match q.matchAt? p with
      | some r => some (0, r.cursor)
      | none => (firstOf? specs p).map fun x => (x.1 + 1, x.2) := by
  rw [firstOf?, readPattern_eq_ok_iff.2 hread]
  rfl

theorem firstOf?_append_of_none {specs : List Spec} {p : Cursor} (h : firstOf? specs p = none)
    (more : List Spec) :
    firstOf? (specs ++ more) p = (firstOf? more p).map fun x => (specs.length + x.1, x.2) := by
  induction specs with
  | nil => simp
  | cons s specs ih =>
    rw [firstOf?] at h
    rw [List.cons_append, firstOf?]
    cases hs : (readPattern s.pattern).toOption.bind (·.matchAt? p) with
    | some r =>
      rw [hs] at h
      cases h
    | none =>
      rw [hs] at h
      dsimp only at h ⊢
      rw [ih (Option.map_eq_none_iff.1 h), Option.map_map]
      congr 1
      funext x
      simp [Nat.succ_add]

/-- The first rule that applies is the rule of the first spec that matches, and they take the same
text. -/
structure Covers (lexer : Lexer) (specs : List Spec) (rules : List Direct.Rule) : Prop where
  missed {p : Cursor} : first? rules p.after = none → firstOf? specs p = none
  found {p : Cursor} {rule : Direct.Rule} {text : List Char} :
    first? rules p.after = some (rule, text) → text ≠ [] ∧ ∃ i s rest, specs[i]? = some s ∧
      lexer.Gives s.action rule ∧ p.after = text ++ rest ∧
      firstOf? specs p = some (i, p.pass text rest)

theorem Covers.nil : lexer.Covers [] [] where
  missed _ := rfl
  found h := by cases h

theorem Covers.cons {s : Spec} {rule : Direct.Rule} {q : Pattern} {specs : List Spec}
    {rules : List Direct.Rule} (hread : read s.pattern.toList = .ok q) (hq : q.Recognises rule.read?)
    (hgives : lexer.Gives s.action rule) (h : lexer.Covers specs rules) :
    lexer.Covers (s :: specs) (rule :: rules) := by
  have hcons (cs : List Char) : first? (rule :: rules) cs =
      ((rule.read? cs).map fun text => (rule, text)).or (first? rules cs) := by
    rw [first?, List.findSome?_cons]
    cases rule.read? cs <;> rfl
  constructor
  · intro p hnone
    rw [hcons, Option.or_eq_none_iff, Option.map_eq_none_iff] at hnone
    rw [firstOf?_cons hread, hq.missed hnone.1]
    dsimp only
    rw [h.missed hnone.2]
    rfl
  · intro p rule' text hsome
    rw [hcons] at hsome
    rw [firstOf?_cons hread]
    cases hrule : rule.read? p.after with
    | some text =>
      rw [hrule] at hsome
      cases hsome
      obtain ⟨hne, rest, hafter, hmatch⟩ := hq.found hrule
      exact ⟨hne, 0, s, rest, rfl, hgives, hafter, by rw [hmatch]⟩
    | none =>
      rw [hrule] at hsome
      obtain ⟨hne, i, s', rest, hi, hgives', hafter, hfirst⟩ := h.found hsome
      refine ⟨hne, i + 1, s', rest, hi, hgives', hafter, ?_⟩
      rw [hq.missed hrule, hfirst]
      rfl

theorem covers_literal {literals : List String} (hne : ∀ l ∈ literals, l ≠ "") :
    lexer.Covers (Spec.literal? literals).toList [.literal literals] := by
  cases hliteral : Spec.literal? literals with
  | some s =>
    obtain ⟨q, hread, hq⟩ := recognises_literal hliteral hne
    exact .cons hread hq (Spec.action_literal? hliteral ▸ gives_literal literals) .nil
  | none =>
    -- Without literals there is no spec, and the rule never applies.
    have hnil : literals = [] := by
      unfold Spec.literal? at hliteral
      split at hliteral
      · next hempty => exact List.isEmpty_iff.1 hempty
      · cases hliteral
    subst hnil
    exact ⟨fun _ => rfl, fun h => by cases h⟩

theorem covers_rules (h : ofConfig c = .ok lexer) :
    lexer.Covers (Spec.base ++ (Spec.literal? c.literals).toList) (rules c) := by
  have hserves := serves_of_ofConfig h
  have hword : lexer.Gives .identifier (.word c.keywords) := hserves.keywords ▸ gives_word
  have hbreaks : lexer.Gives .newline (.lineBreaks c.newlines) := hserves.newlines ▸ gives_lineBreaks
  refine .cons rfl recognises_blanks gives_blanks ?_
  refine .cons rfl recognises_lineBreaks hbreaks ?_
  refine .cons rfl recognises_identifier hword ?_
  refine .cons rfl recognises_hexNumber gives_hexNumber ?_
  refine .cons rfl recognises_fraction (gives_decimal _) ?_
  refine .cons rfl recognises_wholeNumber (gives_decimal _) ?_
  refine .cons rfl (recognises_quoted (by decide)) (gives_quoted '"') ?_
  refine .cons rfl (recognises_quoted (by decide)) (gives_quoted '\'') ?_
  exact covers_literal (ne_empty_of_ofConfig h)

theorem step_of_firstOf? (h : ofConfig c = .ok lexer) (hcustom : c.custom = []) {place : Place}
    {i : Nat} {s : Spec} {text rest : List Char} (hne : text ≠ [])
    (hafter : place.cursor.after = text ++ rest) (hs : (Spec.builtin c)[i]? = some s)
    (hfirst : firstOf? (Spec.builtin c) place.cursor = some (i, place.cursor.pass text rest)) :
    lexer.step place =
      ((lexer.perform s.action text (place.marker (place.cursor.offset + byteSize text))).map
        (·.filter lexer.keeps)).map
          fun tokens => (tokens, place.advance text (place.cursor.pass text rest)) := by
  obtain ⟨hspecs, -⟩ := exists_glued_of_ofConfig h (by simp [hcustom])
  have hbuiltin : lexer.specs = Spec.builtin c := by rw [hspecs, Spec.all_eq, hcustom]; rfl
  have htry : lexer.tryEach? place.cursor = some (i, place.cursor.pass text rest) := by
    rw [tryEach?, hbuiltin, hfirst]
    simp [place.cursor.lt_offset_pass hne rest]
  rw [step, branch?_eq_tryEach?_of_builtin h hcustom, htry]
  exact stepTo_pass (hbuiltin ▸ hs) hafter

theorem eq_drop_of_cons_eq_append {ch : Char} {cs text rest : List Char} (hne : text ≠ [])
    (h : ch :: cs = text ++ rest) : cs.drop (text.length - 1) = rest := by
  obtain ⟨d, text, rfl⟩ := List.exists_cons_of_ne_nil hne
  obtain ⟨-, rfl⟩ := List.cons.inj h
  exact List.drop_left

theorem step_eq_item (h : ofConfig c = .ok lexer) (hcustom : c.custom = []) {place : Place}
    {ch : Char} {cs : List Char} (hafter : place.cursor.after = ch :: cs) :
    (item c ch cs).1 ≠ [] ∧ ∃ rest, ch :: cs = (item c ch cs).1 ++ rest ∧
      lexer.step place =
        ((item c ch cs).2
          (place.marker (place.cursor.offset + byteSize (item c ch cs).1))).map fun t =>
            (t.toList, place.advance (item c ch cs).1
              (place.cursor.pass (item c ch cs).1 rest)) := by
  have hcovers := covers_rules h
  rw [item]
  cases hitem : first? (rules c) (ch :: cs) with
  | some x =>
    obtain ⟨rule, text⟩ := x
    rw [← hafter] at hitem
    obtain ⟨hne, i, s, rest, hs, hgives, htext, hfirst⟩ := hcovers.found hitem
    refine ⟨hne, rest, hafter.symm.trans htext, ?_⟩
    have hlt := (List.getElem?_eq_some_iff.1 hs).1
    rw [step_of_firstOf? h hcustom hne htext ((List.getElem?_append_left hlt).trans hs)
      (firstOf?_append hfirst _)]
    rw [hgives, map_map]
  | none =>
    have hbreak : ch ≠ '\n' := by
      rintro rfl
      have hrules := List.findSome?_eq_none_iff.1 hitem (.lineBreaks c.newlines) (by simp [rules])
      cases hrules
    have htext : unknown? place.cursor.after = some (ch :: cs.takeWhile fun c => !Text.isBlank c) := by
      rw [hafter, unknown?, if_neg hbreak]
    obtain ⟨hne, rest, hrest, hmatch⟩ := recognises_catchAll.found htext
    refine ⟨hne, rest, hafter.symm.trans hrest, ?_⟩
    rw [← hafter] at hitem
    have hfirst := firstOf?_append_of_none (hcovers.missed hitem) [Spec.catchAll]
    rw [firstOf?_cons read_catchAll, hmatch] at hfirst
    have hspec : (Spec.builtin c)[(Spec.base ++ (Spec.literal? c.literals).toList).length]? =
        some Spec.catchAll := by
      rw [Spec.builtin, List.getElem?_append_right (Nat.le_refl _), Nat.sub_self]
      rfl
    rw [step_of_firstOf? h hcustom hne hrest hspec hfirst]
    rfl

theorem scanFrom_cons (c : Config) (source : String) (offset line : Nat) (ch : Char)
    (cs : List Char) :
    scanFrom c source offset line (ch :: cs) =
      (item c ch cs).2 (.span source offset (offset + byteSize (item c ch cs).1) line) >>= fun t =>
        (scanFrom c source (offset + byteSize (item c ch cs).1)
          (line + (item c ch cs).1.count '\n') (cs.drop ((item c ch cs).1.length - 1))).map
            fun more => t.toList ++ more := by
  rw [scanFrom]
  rfl

theorem listFrom_eq_scanFrom (h : ofConfig c = .ok lexer) (hcustom : c.custom = []) {fuel : Nat}
    {place : Place} (hfuel : place.cursor.after.length ≤ fuel) :
    lexer.listFrom fuel place =
      scanFrom c place.source place.cursor.offset place.line place.cursor.after := by
  -- Each step takes a character at least, so as many steps are enough as characters are left.
  induction fuel generalizing place with
  | zero =>
    have hafter := List.length_eq_zero_iff.1 (Nat.le_zero.1 hfuel)
    rw [listFrom_atEnd hafter, hafter, scanFrom]
    rfl
  | succ fuel ih =>
    cases hafter : place.cursor.after with
    | nil =>
      rw [listFrom_atEnd hafter, scanFrom]
      rfl
    | cons ch cs =>
      obtain ⟨hne, rest, htext, hstep⟩ := step_eq_item h hcustom hafter
      have hlength : rest.length ≤ fuel := by
        rw [← eq_drop_of_cons_eq_append hne htext, List.length_drop]
        rw [hafter, List.length_cons] at hfuel
        omega
      rw [listFrom_cons hafter, hstep, scanFrom_cons, eq_drop_of_cons_eq_append hne htext]
      -- The marker of the item is the span that direct scanning gives it.
      change _ = (item c ch cs).2
        (place.marker (place.cursor.offset + byteSize (item c ch cs).1)) >>= _
      cases (item c ch cs).2 (place.marker (place.cursor.offset + byteSize (item c ch cs).1)) with
      | error e => rfl
      | ok t => exact congrArg (Except.map _) (ih hlength)

theorem list_eq_scanFrom (h : ofConfig c = .ok lexer) (hcustom : c.custom = [])
    (source text : String) : lexer.list source text = scanFrom c source 0 1 text.toList :=
  listFrom_eq_scanFrom h hcustom (Nat.le_refl (Place.start source text).cursor.after.length)

/-- Tokens and errors are those of direct scanning. -/
theorem list_eq_scan (h : ofConfig c = .ok lexer) (hcustom : c.custom = []) (source text : String) :
    lexer.list source text = scan c source text :=
  list_eq_scanFrom h hcustom source text

theorem list_eq_scan_broken :
    ∃ lexer, ofConfig { keywords := ["if", "0x"], symbols := ["<", "<<=", "<=", "1."] } = .ok lexer ∧
      lexer.list "" "iff 0xg 1.e+ <<== 'it\\'s" =
        scan { keywords := ["if", "0x"], symbols := ["<", "<<=", "<=", "1."] } ""
          "iff 0xg 1.e+ <<== 'it\\'s" := by
  obtain ⟨lexer, h⟩ := (exists_ofConfig_iff (c := {
      keywords := ["if", "0x"]
      symbols := ["<", "<<=", "<=", "1."] }) rfl).2 (by decide)
  exact ⟨lexer, h, list_eq_scan h rfl _ _⟩

end Lexer

end Packrat
