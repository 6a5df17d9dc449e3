import Packrat.Proofs.Grammar.Valid
import Packrat.Proofs.Parser.Mirror

namespace Packrat

variable {V : Type}

namespace Grammar

def rulesFor (g : Grammar V) (name : String) (leftRecursive : Bool) : List (Rule V) :=
  g.rules.filter fun r => r.lhs == name && r.isLeftRecursive == leftRecursive

/-- The grammars start alike, and the rules of each sort for a name stand in the same order. -/
structure Rearranged (g h : Grammar V) : Prop where
  start : h.start = g.start
  rules (name : String) (leftRecursive : Bool) :
    h.rulesFor name leftRecursive = g.rulesFor name leftRecursive

variable {g h : Grammar V} {c d : CompiledGrammar V} {lexer : Lexer}

namespace Rearranged

theorem symm (hgh : g.Rearranged h) : h.Rearranged g :=
  ⟨hgh.start.symm, fun name b => (hgh.rules name b).symm⟩

theorem mem_of_mem (hgh : g.Rearranged h) {r : Rule V} (hr : r ∈ g.rules) : r ∈ h.rules := by
  have mem : r ∈ g.rulesFor r.lhs r.isLeftRecursive := by simp [rulesFor, hr]
  rw [← hgh.rules] at mem
  exact List.mem_of_mem_filter mem

theorem valid (hgh : g.Rearranged h) (hg : g.Valid lexer) : h.Valid lexer := by
  have back {r : Rule V} (hr : r ∈ h.rules) : r ∈ g.rules := hgh.symm.mem_of_mem hr
  exact {
    name := fun r hr => hg.name r (back hr)
    rhs_ne_nil := fun r hr => hg.rhs_ne_nil r (back hr)
    symbol_ne_empty := fun r hr => hg.symbol_ne_empty r (back hr)
    two_le_length := fun r hr => hg.two_le_length r (back hr)
    reducer := fun r hr => hg.reducer r (back hr)
    start := by
      obtain ⟨r, hr, hlhs⟩ := hg.start
      exact ⟨r, hgh.mem_of_mem hr, hlhs.trans hgh.start.symm⟩
    defined := fun r hr name hname => by
      obtain ⟨r', hr', hlhs⟩ := hg.defined r (back hr) name hname
      exact ⟨r', hgh.mem_of_mem hr', hlhs⟩
    recognized := fun r hr => hg.recognized r (back hr) }

theorem exists_compile_iff (hgh : g.Rearranged h) :
    (∃ c, g.compile lexer = .ok c) ↔ ∃ d, h.compile lexer = .ok d := by
  rw [exists_compile_iff_valid, exists_compile_iff_valid]
  exact ⟨hgh.valid, hgh.symm.valid⟩

theorem mem_names_of_mem (hgh : g.Rearranged h) {name : String} (hname : name ∈ g.names) :
    name ∈ h.names := by
  obtain ⟨r, hr, hlhs⟩ := mem_names.1 hname
  exact mem_names.2 ⟨r, hgh.mem_of_mem hr, hlhs⟩

theorem names_perm (hgh : g.Rearranged h) : g.names.Perm h.names :=
  (List.perm_ext_iff_of_nodup g.names_nodup h.names_nodup).2 fun _ =>
    ⟨hgh.mem_names_of_mem, hgh.symm.mem_names_of_mem⟩

end Rearranged

namespace CompilesTo

theorem forall₂_rulesOf (hc : g.CompilesTo c) {i : Nat} {name : String}
    (hi : g.names[i]? = some name) (b : Bool) :
    List.Forall₂ (RuleCompiles g.names) (g.rulesFor name b) (c.rulesOf i b) := by
  apply List.rel_filter _ hc.rules
  intro r cr hr
  simp only [Bool.and_eq_true, beq_iff_eq, name_eq_iff g.names_nodup hr.lhs hi,
    hr.isLeftRecursive_eq g.names_nodup]

theorem name_mem_or (hc : g.CompilesTo c) (i : Nat) : c.name i ∈ g.names ∨ c.name i = "" := by
  rw [← hc.names, CompiledGrammar.name]
  cases hi : c.nonTerminals[i]? with
  | none => exact .inr rfl
  | some n =>
    rw [← Array.getElem?_toList] at hi
    exact .inl (List.mem_map_of_mem (List.mem_of_getElem? hi))

end CompilesTo

end Grammar

namespace CompiledGrammar

def number (c : CompiledGrammar V) (h : Grammar V) (i : Nat) : Nat := h.names.idxOf (c.name i)

variable {g h : Grammar V} {c d : CompiledGrammar V} (hc : g.CompilesTo c) (hd : h.CompilesTo d)
  (hnames : g.names.Perm h.names)

include hc

theorem number_eq {name : String} {i j : Nat} (hi : g.names[i]? = some name)
    (hj : h.names[j]? = some name) : c.number h i = j := by
  obtain ⟨hlt, rfl⟩ := List.getElem?_eq_some_iff.1 hj
  rw [number, hc.name_eq hi]
  exact h.names_nodup.idxOf_getElem j hlt

theorem slots_eq {symbols : List Symbol} {slots slots' : List Slot}
    (hs : List.Forall₂ (Grammar.Resolves g.names) symbols slots)
    (hs' : List.Forall₂ (Grammar.Resolves h.names) symbols slots') :
    slots' = slots.map (.renumber (c.number h)) := by
  induction hs generalizing slots' with
  | nil =>
    cases hs'
    rfl
  | cons hslot _ ih =>
    cases hs' with
    | cons hslot' hrest =>
      rw [List.map_cons, ← ih hrest]
      congr 1
      cases hslot with
      | terminal kind =>
        cases hslot'
        rfl
      | nonTerminal hi =>
        cases hslot' with
        | nonTerminal hj => exact congrArg Slot.nonTerminal (number_eq hc hi hj).symm

include hd hnames

@[simp] theorem name_number (i : Nat) : d.name (c.number h i) = c.name i := by
  by_cases hmem : c.name i ∈ h.names
  · exact hd.name_eq (List.getElem?_idxOf hmem)
  · have hname : c.name i = "" :=
      (hc.name_mem_or i).resolve_left fun hname => hmem (hnames.subset hname)
    have hout : c.number h i = d.nonTerminals.size := by
      rw [number, List.idxOf_eq_length hmem, hd.size_eq]
    rw [hout, hname, name, Array.getElem?_size]

theorem slotName_renumber (slot : Slot) :
    d.slotName (slot.renumber (c.number h)) = c.slotName slot := by
  cases slot with
  | terminal kind => rfl
  | nonTerminal i => simp only [Slot.renumber, slotName, name_number hc hd hnames]

end CompiledGrammar

namespace Parser

open Problem Grammar

variable {g h : Grammar V} {c d : CompiledGrammar V} {lexer : Lexer}

def Comparison.renumbering (c : CompiledGrammar V) (h : Grammar V) : Comparison where
  size := c.nonTerminals.size
  number := c.number h
  alike e e' := e' = e
  final _ := False

section

variable (hc : g.CompilesTo c) (hd : h.CompilesTo d) (hnames : g.names.Perm h.names)
  (tokens : Array Token)

include hc hd hnames

theorem ruleLike_renumbering {r : Rule V} {cr dr : CompiledRule V}
    (hcr : Grammar.RuleCompiles g.names r cr) (hdr : Grammar.RuleCompiles h.names r dr) :
    (Comparison.renumbering c h).RuleLike ⟨c, tokens⟩ ⟨d, tokens⟩ cr dr := by
  have hlhs : dr.lhs = c.number h cr.lhs := (CompiledGrammar.number_eq hc hcr.lhs hdr.lhs).symm
  have hname : d.name dr.lhs = c.name cr.lhs := by
    rw [hlhs, CompiledGrammar.name_number hc hd hnames]
  have hreducer : dr.reducer = cr.reducer := hdr.reducer.trans hcr.reducer.symm
  have hhard : dr.failHard = cr.failHard := hdr.failHard.trans hcr.failHard.symm
  exact {
    lhs := hlhs
    rhs := CompiledGrammar.slots_eq hc hcr.rhs hdr.rhs
    slot_lt_size := fun j hj => by
      obtain ⟨s, -, hs⟩ := exists_left_of_mem hcr.rhs hj
      cases hs with
      | nonTerminal hname => exact hc.lt_size hname
    context := fun start stop => by
      rw [context, context, hname]
      rfl
    reducer := fun f hf => by
      refine ⟨f, hreducer.trans hf, fun start stop values => ?_⟩
      cases f _ values with
      | ok v => rfl
      | error e => exact ⟨e, rfl, rfl⟩
    no_reducer := fun hnone => ⟨hreducer.trans hnone, fun _ _ => .inr rfl⟩
    soft := fun hsoft => hhard.trans hsoft
    hard := fun slot place furthest hh _ => by
      refine .inr ⟨hhard.trans hh, ?_⟩
      have hslot : d.slotName (slot.renumber (c.number h)) = c.slotName slot :=
        CompiledGrammar.slotName_renumber hc hd hnames slot
      change required _ _ (slot.renumber (c.number h)) place furthest = _
      rw [required, required, hname, hslot]
      rfl }

theorem forall₂_ruleLike_renumbering {rs : List (Rule V)} {crs drs : List (CompiledRule V)}
    (hcrs : List.Forall₂ (Grammar.RuleCompiles g.names) rs crs)
    (hdrs : List.Forall₂ (Grammar.RuleCompiles h.names) rs drs) :
    List.Forall₂ ((Comparison.renumbering c h).RuleLike ⟨c, tokens⟩ ⟨d, tokens⟩) crs drs := by
  apply (forall₂_of_common hcrs hdrs).imp
  rintro cr dr ⟨r, -, hcr, hdr⟩
  exact ruleLike_renumbering hc hd hnames tokens hcr hdr

theorem compares_renumbering [OfToken V] (hstart : h.start = g.start)
    (hchoice : ∀ {recur recur' : Recursion V},
      (Comparison.renumbering c h).RecursionMirrors recur recur' → ∀ i j name place base,
        g.names[i]? = some name → h.names[j]? = some name →
          (Comparison.renumbering c h).Mirrors
            ((Problem.mk c tokens).choice recur place base (c.rulesOf i base.isSome))
            ((Problem.mk d tokens).choice recur' place base (d.rulesOf j base.isSome))) :
    (Comparison.renumbering c h).Compares ⟨c, tokens⟩ ⟨d, tokens⟩ := by
  have named {i : Nat} (hi : i < c.nonTerminals.size) : ∃ name, g.names[i]? = some name :=
    ⟨_, List.getElem?_eq_getElem (hc.size_eq ▸ hi)⟩
  have numbered {name : String} (hname : name ∈ g.names) : ∃ j, h.names[j]? = some name :=
    List.mem_iff_getElem?.1 (hnames.subset hname)
  have hsize : d.nonTerminals.size = c.nonTerminals.size := by
    rw [hd.size_eq, hc.size_eq, hnames.length_eq]
  constructor
  · rfl
  · rfl
  · exact hsize
  · exact (CompiledGrammar.number_eq hc hc.start (hstart ▸ hd.start)).symm
  · intro i hi
    obtain ⟨name, hname⟩ := named hi
    obtain ⟨j, hj⟩ := numbered (List.mem_of_getElem? hname)
    change c.number h i < c.nonTerminals.size
    rw [CompiledGrammar.number_eq hc hname hj, ← hsize]
    exact hd.lt_size hj
  · intro i j hi hj hij
    obtain ⟨a, ha⟩ := named hi
    obtain ⟨b, hb⟩ := named hj
    rw [← Grammar.name_eq_iff g.names_nodup ha hb, ← hc.name_eq ha, ← hc.name_eq hb,
      ← CompiledGrammar.name_number hc hd hnames, ← CompiledGrammar.name_number hc hd hnames j]
    exact congrArg d.name hij
  · intro recur recur' hrecur i place base hi
    obtain ⟨name, hname⟩ := named hi
    obtain ⟨j, hj⟩ := numbered (List.mem_of_getElem? hname)
    have hnumber : (Comparison.renumbering c h).number i = j :=
      CompiledGrammar.number_eq hc hname hj
    rw [hnumber]
    exact hchoice hrecur i j name place base hname hj

omit hnames in
theorem parse_eq_of_compares [OfToken V] {lexer : Lexer}
    (hcompares : ∀ tokens, (Comparison.renumbering c h).Compares ⟨c, tokens⟩ ⟨d, tokens⟩)
    (source : Source) : (Parser.mk lexer d).parse source = (Parser.mk lexer c).parse source := by
  -- The tokens do not depend on the grammar.
  cases htokens : (Parser.mk lexer c).tokens source with
  | error e => rw [parse_eq_error htokens, parse_eq_error (p := ⟨lexer, d⟩) htokens]
  | ok tokens =>
    have hagree := (hcompares tokens.toArray).agree_run hc hd
    rw [parse_eq_outcome htokens, parse_eq_outcome (p := ⟨lexer, d⟩) htokens]
    exact (hagree.outcome_eq (fun _ _ => id) rfl source).resolve_left fun ⟨_, _, hfinal⟩ => hfinal

end

/-- If the rules of each sort for each name keep their order, the order of all rules does not
matter. -/
theorem parse_eq_of_rearranged [OfToken V] (hgh : g.Rearranged h) (lexer : Lexer) :
    ((∃ p, ofGrammar g lexer = .ok p) ↔ ∃ q, ofGrammar h lexer = .ok q) ∧
      ∀ p q, ofGrammar g lexer = .ok p → ofGrammar h lexer = .ok q →
        ∀ source, q.parse source = p.parse source := by
  constructor
  · rw [exists_ofGrammar_iff, exists_ofGrammar_iff]
    exact hgh.exists_compile_iff
  · intro p q hp hq source
    obtain ⟨c, hc, rfl⟩ := ofGrammar_eq_ok_iff.1 hp
    obtain ⟨d, hd, rfl⟩ := ofGrammar_eq_ok_iff.1 hq
    have hc := compilesTo_of_compile hc
    have hd := compilesTo_of_compile hd
    apply parse_eq_of_compares hc hd
    intro tokens
    apply compares_renumbering hc hd hgh.names_perm tokens hgh.start
    intro recur recur' hrecur i j name place base hi hj
    have hrules := hd.forall₂_rulesOf hj base.isSome
    rw [hgh.rules] at hrules
    have hlike := forall₂_ruleLike_renumbering hc hd hgh.names_perm tokens
      (hc.forall₂_rulesOf hi base.isSome) hrules
    exact Comparison.mirrors_choice (p := ⟨c, tokens⟩) (q := ⟨d, tokens⟩) rfl hrecur hlike place base

def turned : Grammar Value where
  start := "a"
  rules := [3, 1, 2, 0, 4].filterMap (Grammar.interleaved.rules[·]?)

theorem rearranged_turned : Grammar.interleaved.Rearranged turned where
  start := rfl
  rules name leftRecursive := by
    by_cases ha : name = "a"
    · subst ha
      cases leftRecursive <;> rfl
    · by_cases hb : name = "b"
      · subst hb
        cases leftRecursive <;> rfl
      · simp [Grammar.rulesFor, turned, Grammar.interleaved, Ne.symm ha, Ne.symm hb]

theorem parse_eq_of_rearranged_turned :
    Grammar.interleaved.Rearranged turned ∧ ∃ lexer, Lexer.ofConfig .bare = .ok lexer ∧
      ∃ p, ofGrammar Grammar.interleaved lexer = .ok p ∧ ∃ q, ofGrammar turned lexer = .ok q ∧
        p.grammar.names = ["a", "b"] ∧ q.grammar.names = ["b", "a"] ∧
          ∀ source, q.parse source = p.parse source := by
  obtain ⟨lexer, hlexer, p, hp, q, hq, hnames, hnames'⟩ :
      ∃ lexer, Lexer.ofConfig .bare = .ok lexer ∧
      ∃ p, ofGrammar Grammar.interleaved lexer = .ok p ∧ ∃ q, ofGrammar turned lexer = .ok q ∧
        p.grammar.names = ["a", "b"] ∧ q.grammar.names = ["b", "a"] := by
    decide +kernel
  exact ⟨rearranged_turned, lexer, hlexer, p, hp, q, hq, hnames, hnames',
    (parse_eq_of_rearranged rearranged_turned lexer).2 p q hp hq⟩

end Parser

end Packrat
