import Packrat.Proofs.Parser.Rearranged

namespace Packrat

variable {V : Type}

namespace Grammar

/-- The grammar without the ordinary rules that stand behind rule number `k` for its non-terminal. -/
def curtail (g : Grammar V) (k : Nat) : Grammar V :=
  match g.rules[k]? with
  | none => g
  | some r => {
      g with
      rules := g.rules.take (k + 1) ++
        (g.rules.drop (k + 1)).filter fun s => s.lhs != r.lhs || s.isLeftRecursive }

variable {g : Grammar V} {k : Nat} {r : Rule V} {lexer : Lexer}

theorem exists_curtail_eq (hr : g.rules[k]? = some r) :
    ∃ front back, g.rules = front ++ r :: back ∧
      g.curtail k = { g with
        rules := front ++ r :: back.filter fun s => s.lhs != r.lhs || s.isLeftRecursive } := by
  obtain ⟨hlt, rfl⟩ := List.getElem?_eq_some_iff.1 hr
  refine ⟨g.rules.take k, g.rules.drop (k + 1), ?_, ?_⟩
  · rw [← List.drop_eq_getElem_cons hlt, List.take_append_drop]
  · simp only [curtail, hr, List.take_succ_eq_append_getElem hlt, List.append_assoc,
      List.singleton_append]

theorem foldl_addName_filter {keep : Rule V → Bool} {rules : List (Rule V)} {names : List String}
    (h : ∀ s ∈ rules, keep s = false → s.lhs ∈ names) :
    (rules.filter keep).foldl addName names = rules.foldl addName names := by
  induction rules generalizing names with
  | nil => rfl
  | cons s rest ih =>
    have hrest : ∀ t ∈ rest, keep t = false → t.lhs ∈ addName names s := fun t ht hkeep =>
      mem_addName.2 (.inl (h t (List.mem_cons_of_mem s ht) hkeep))
    cases hs : keep s with
    | true => rw [List.filter_cons_of_pos hs, List.foldl_cons, List.foldl_cons, ih hrest]
    | false =>
      have hmem : addName names s = names := by
        simp [addName, h s List.mem_cons_self hs]
      rw [hmem] at hrest
      rw [List.filter_cons_of_neg (by simp [hs]), List.foldl_cons, hmem, ih hrest]

theorem names_curtail (g : Grammar V) (k : Nat) : (g.curtail k).names = g.names := by
  cases hr : g.rules[k]? with
  | none => simp only [curtail, hr]
  | some r =>
    obtain ⟨front, back, hrules, hcurtail⟩ := exists_curtail_eq hr
    rw [names_eq_foldl, names_eq_foldl, hcurtail, hrules]
    simp only [List.foldl_append, List.foldl_cons]
    apply foldl_addName_filter
    intro s _ hs
    simp only [Bool.or_eq_false_iff, bne_eq_false_iff_eq] at hs
    exact mem_addName.2 (.inr hs.1.symm)

theorem mem_of_mem_curtail {s : Rule V} (hs : s ∈ (g.curtail k).rules) : s ∈ g.rules := by
  cases hr : g.rules[k]? with
  | none => simpa only [curtail, hr] using hs
  | some r =>
    obtain ⟨front, back, hrules, hcurtail⟩ := exists_curtail_eq hr
    rw [hcurtail] at hs
    rw [hrules]
    grind

@[simp] theorem start_curtail (g : Grammar V) (k : Nat) : (g.curtail k).start = g.start := by
  unfold curtail
  split <;> rfl

theorem Valid.curtail (hg : g.Valid lexer) (k : Nat) : (g.curtail k).Valid lexer := by
  have named {name : String} (h : ∃ s ∈ g.rules, s.lhs = name) :
      ∃ s ∈ (g.curtail k).rules, s.lhs = name := by
    rwa [← mem_names, names_curtail, mem_names]
  exact {
    name := fun s hs => hg.name s (mem_of_mem_curtail hs)
    rhs_ne_nil := fun s hs => hg.rhs_ne_nil s (mem_of_mem_curtail hs)
    symbol_ne_empty := fun s hs => hg.symbol_ne_empty s (mem_of_mem_curtail hs)
    two_le_length := fun s hs => hg.two_le_length s (mem_of_mem_curtail hs)
    reducer := fun s hs => hg.reducer s (mem_of_mem_curtail hs)
    start := start_curtail g k ▸ named hg.start
    defined := fun s hs name hname => named (hg.defined s (mem_of_mem_curtail hs) name hname)
    recognized := fun s hs => hg.recognized s (mem_of_mem_curtail hs) }

theorem exists_rulesFor_curtail_eq_take (hr : g.rules[k]? = some r)
    (hordinary : r.isLeftRecursive = false) :
    ∃ m, (g.rulesFor r.lhs false)[m]? = some r ∧
      (g.curtail k).rulesFor r.lhs false = (g.rulesFor r.lhs false).take (m + 1) := by
  obtain ⟨front, back, hrules, hcurtail⟩ := exists_curtail_eq hr
  let picks (s : Rule V) : Bool := s.lhs == r.lhs && s.isLeftRecursive == false
  have hr : picks r = true := by simp [picks, hordinary]
  have hback : (back.filter fun s => s.lhs != r.lhs || s.isLeftRecursive).filter picks = [] := by
    rw [List.filter_filter, List.filter_eq_nil_iff]
    grind
  have hrulesFor : g.rulesFor r.lhs false = front.filter picks ++ r :: back.filter picks := by
    rw [rulesFor, hrules, List.filter_append, List.filter_cons_of_pos hr]
  have hcurtailed : (g.curtail k).rulesFor r.lhs false = front.filter picks ++ [r] := by
    rw [rulesFor, hcurtail, List.filter_append, List.filter_cons_of_pos hr, hback]
  refine ⟨(front.filter picks).length, ?_, ?_⟩
  · rw [hrulesFor, List.getElem?_append_right (Nat.le_refl _), Nat.sub_self, List.getElem?_cons_zero]
  · rw [hcurtailed, hrulesFor, List.take_length_add_append, List.take_succ_cons, List.take_zero]

theorem rulesFor_curtail (hr : g.rules[k]? = some r) {name : String} {b : Bool}
    (h : name ≠ r.lhs ∨ b = true) : (g.curtail k).rulesFor name b = g.rulesFor name b := by
  obtain ⟨front, back, hrules, hcurtail⟩ := exists_curtail_eq hr
  have hback : back.filter (fun s => (s.lhs == name && s.isLeftRecursive == b) &&
      (s.lhs != r.lhs || s.isLeftRecursive)) =
        back.filter fun s => s.lhs == name && s.isLeftRecursive == b := by
    apply List.filter_congr
    grind
  simp only [rulesFor, hrules, hcurtail, List.filter_append, List.filter_cons, List.filter_filter,
    hback]

end Grammar

namespace Parser

open Problem Grammar

section

variable [OfToken V] {p : Problem V} {recur : Recursion V} {rule : CompiledRule V}

theorem sequence_ne_missed (hhard : rule.failHard = true) (slots : List Slot) (place : Nat)
    (st : State V) : (p.sequence recur rule false slots place st).1 ≠ .missed := by
  intro hmissed
  induction slots generalizing place st with
  | nil => cases hmissed
  | cons slot rest ih =>
    rw [Problem.sequence] at hmissed
    rcases hslot : p.matchSlot recur slot place st with ⟨step | _ | e, st'⟩
    · rw [Attempt.andElse_of_found hslot] at hmissed
      have hrest := ih step.next st'
      rcases hout : p.sequence recur rule false rest step.next st' with ⟨x | _ | e, st''⟩
      · rw [Attempt.andElse_of_found hout] at hmissed
        cases hmissed
      · exact hrest (congrArg Prod.fst hout)
      · rw [Attempt.andElse_of_broken hout] at hmissed
        cases hmissed
    · rw [Attempt.andElse_of_missed hslot, escalate] at hmissed
      simp [hhard] at hmissed
    · rw [Attempt.andElse_of_broken hslot] at hmissed
      cases hmissed

theorem choice_take {place m : Nat} {rules : List (CompiledRule V)} (hrule : rules[m]? = some rule)
    (hhard : rule.failHard = true) :
    p.choice recur place none (rules.take (m + 1)) = p.choice recur place none rules := by
  induction m generalizing rules with
  | zero =>
    obtain ⟨rest, rfl⟩ := List.head?_eq_some_iff.1 (List.head?_eq_getElem? ▸ hrule)
    funext st
    have hne : (p.sequence recur rule false rule.rhs place st).1 ≠ .missed :=
      sequence_ne_missed hhard rule.rhs place st
    change (p.sequence recur rule false rule.rhs place).andElse _ _ st =
      (p.sequence recur rule false rule.rhs place).andElse _ _ st
    rcases hout : p.sequence recur rule false rule.rhs place st with ⟨x | _ | e, st'⟩
    · rw [Attempt.andElse_of_found hout, Attempt.andElse_of_found hout]
    · exact absurd (congrArg Prod.fst hout) hne
    · rw [Attempt.andElse_of_broken hout, Attempt.andElse_of_broken hout]
  | succ m ih =>
    cases rules with
    | nil => simp at hrule
    | cons first rest =>
      rw [List.take_succ_cons, choice, choice, ih (by simpa using hrule)]

end

variable {g : Grammar V} {c d : CompiledGrammar V} {k : Nat} {r : Rule V} {lexer : Lexer}

theorem compares_curtail [OfToken V] (hc : g.CompilesTo c) (hd : (g.curtail k).CompilesTo d)
    (hr : g.rules[k]? = some r) (hordinary : r.isLeftRecursive = false) (hhard : r.failHard = true)
    (tokens : Array Token) :
    (Comparison.renumbering c (g.curtail k)).Compares ⟨c, tokens⟩ ⟨d, tokens⟩ := by
  have hnames : g.names.Perm (g.curtail k).names := by rw [names_curtail]
  apply compares_renumbering hc hd hnames tokens (start_curtail g k)
  intro recur recur' hrecur i j name place base hi hj
  have hrules := hc.forall₂_rulesOf hi base.isSome
  have hrules' := hd.forall₂_rulesOf hj base.isSome
  by_cases hother : name ≠ r.lhs ∨ base.isSome = true
  · rw [rulesFor_curtail hr hother] at hrules'
    have hlike := forall₂_ruleLike_renumbering hc hd hnames tokens hrules hrules'
    exact Comparison.mirrors_choice (p := ⟨c, tokens⟩) (q := ⟨d, tokens⟩) rfl hrecur hlike place base
  · obtain ⟨rfl, hbase⟩ : name = r.lhs ∧ base.isSome = false := by simpa using hother
    obtain rfl : base = none := by simpa using hbase
    obtain ⟨m, hm, htake⟩ := exists_rulesFor_curtail_eq_take hr hordinary
    rw [Option.isSome_none] at hrules hrules' ⊢
    rw [htake] at hrules'
    obtain ⟨rule, hrule, hcr⟩ := exists_left_of_getElem? hrules.flip hm
    rw [← choice_take hrule (hcr.failHard.trans hhard)]
    have hlike := forall₂_ruleLike_renumbering hc hd hnames tokens
      (List.forall₂_take (m + 1) hrules) hrules'
    exact Comparison.mirrors_choice (p := ⟨c, tokens⟩) (q := ⟨d, tokens⟩) rfl hrecur hlike place none

/-- Without the ordinary rules behind a hard one for the same non-terminal a grammar is accepted too,
and every source parses alike. -/
theorem parse_curtail [OfToken V] {p : Parser V} (hp : ofGrammar g lexer = .ok p)
    (hr : g.rules[k]? = some r) (hordinary : r.isLeftRecursive = false)
    (hhard : r.failHard = true) :
    ∃ q, ofGrammar (g.curtail k) lexer = .ok q ∧ ∀ source, q.parse source = p.parse source := by
  obtain ⟨c, hc, rfl⟩ := ofGrammar_eq_ok_iff.1 hp
  have hvalid : (g.curtail k).Valid lexer := (exists_compile_iff_valid.1 ⟨c, hc⟩).curtail k
  obtain ⟨d, hd⟩ := exists_compile_iff_valid.2 hvalid
  refine ⟨⟨lexer, d⟩, ofGrammar_eq_ok_iff.2 ⟨d, hd, rfl⟩, ?_⟩
  have hc := compilesTo_of_compile hc
  have hd := compilesTo_of_compile hd
  exact parse_eq_of_compares hc hd fun tokens => compares_curtail hc hd hr hordinary hhard tokens

def numbered : Grammar Value where
  start := "item"
  rules :=
    let list : Option (Reducer Value) := some fun _ values => pure (.list values)
    [{ lhs := "item", rhs := [.terminal .string] },
      { lhs := "item", rhs := [.terminal .name, .terminal .number], reducer := list, failHard := true },
      { lhs := "item", rhs := [.terminal .name] },
      { lhs := "item", rhs := [.nonTerminal "item", .terminal .newline], reducer := list }]

theorem parse_curtail_numbered :
    ∃ lexer, Lexer.ofConfig .bare = .ok lexer ∧ ∃ p, ofGrammar numbered lexer = .ok p ∧
      (∃ r, numbered.rules[1]? = some r ∧ r.isLeftRecursive = false ∧ r.failHard = true) ∧
        (numbered.curtail 1).rules.map (·.rhs.length) = [1, 2, 2] ∧
          ∃ q, ofGrammar (numbered.curtail 1) lexer = .ok q ∧
            ∀ source, q.parse source = p.parse source := by
  obtain ⟨lexer, hlexer, p, hp, hrules⟩ :
      ∃ lexer, Lexer.ofConfig .bare = .ok lexer ∧ ∃ p, ofGrammar numbered lexer = .ok p ∧
        (numbered.curtail 1).rules.map (·.rhs.length) = [1, 2, 2] := by
    decide +kernel
  have hcurtail := parse_curtail (k := 1) hp rfl rfl rfl
  exact ⟨lexer, hlexer, p, hp, ⟨_, rfl, rfl, rfl⟩, hrules, hcurtail⟩

end Parser

end Packrat
