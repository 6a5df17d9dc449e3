import Packrat.Lexer.Scan
import Packrat.Proofs.Lexer.Specs
import Packrat.Proofs.Pattern.Renumber

/-! The choice of a spec. The alternatives of all specs match where one of the specs matches by
itself, and the first that does is the one whose group the match has passed. It is recognised by
that group if no spec before it has a group under a repetition of no time: such a group has a
number among the alternatives, but it is not counted. -/

namespace Packrat

open Text (Cursor)

namespace Pattern

theorem run_alts (fuel : Nat) {ps : List Pattern} (hne : ps ≠ []) (s : Progress) (k : Continuation) :
    run fuel (alts ps) s k = ps.findSome? fun p => run fuel p s k := by
  induction ps with
  | nil => exact absurd rfl hne
  | cons p ps ih =>
    cases ps with
    | nil =>
      rw [List.findSome?_cons, List.findSome?_nil]
      cases h : run fuel p s k <;> exact h
    | cons q ps =>
      have halts : alts (p :: q :: ps) = alt p (alts (q :: ps)) := rfl
      rw [List.findSome?_cons, ← ih (List.cons_ne_nil _ _), halts, run_alt]
      cases run fuel p s k <;> rfl

theorem matchAt?_alts {ps : List Pattern} (hne : ps ≠ []) (place : Cursor) :
    (alts ps).matchAt? place = ps.findSome? (·.matchAt? place) := run_alts _ hne _ _

def firstMatch? (ps : List Pattern) (place : Cursor) : Option (Nat × Progress) :=
  match ps with
  | [] => none
  | p :: ps =>
    match p.matchAt? place with
    | some r => some (0, r)
    | none => (firstMatch? ps place).map fun x => (x.1 + 1, x.2)

theorem firstMatch?_append {ps : List Pattern} {place : Cursor}
    (h : ∀ p ∈ ps, p.matchAt? place = none) (more : List Pattern) :
    firstMatch? (ps ++ more) place =
      (firstMatch? more place).map fun x => (ps.length + x.1, x.2) := by
  induction ps with
  | nil => simp
  | cons p ps ih =>
    obtain ⟨hp, hps⟩ := List.forall_mem_cons.1 h
    rw [List.cons_append, firstMatch?, hp]
    dsimp only
    rw [ih hps, Option.map_map]
    congr 1
    funext x
    simp [Nat.succ_add]

theorem lt_length_of_firstMatch? {ps : List Pattern} {place : Cursor} {i : Nat} {r : Progress}
    (h : firstMatch? ps place = some (i, r)) : i < ps.length := by
  induction ps generalizing i with
  | nil => cases h
  | cons p ps ih =>
    rw [firstMatch?] at h
    split at h
    · cases h
      exact Nat.zero_lt_succ _
    · obtain ⟨x, hx, h⟩ := Option.map_eq_some_iff.1 h
      cases h
      exact Nat.succ_lt_succ (ih hx)

def numbersBefore (count : Pattern → Nat) (ps : List Pattern) (i : Nat) : Nat :=
  ((ps.take i).map fun p => count p + 1).sum

theorem numbersBefore_zero (count : Pattern → Nat) (ps : List Pattern) :
    numbersBefore count ps 0 = 0 := rfl

theorem numbersBefore_succ (count : Pattern → Nat) (p : Pattern) (ps : List Pattern) (i : Nat) :
    numbersBefore count (p :: ps) (i + 1) = count p + 1 + numbersBefore count ps i := rfl

def Progress.inGroup (n : Nat) (r : Progress) : Progress :=
  { r with groups := n :: r.groups.map (· + n) }

theorem findSome?_numbered (k : Nat) (ps : List Pattern) (place : Cursor) :
    (numbered k ps).findSome? (·.matchAt? place) =
      (firstMatch? ps place).map fun x =>
        x.2.inGroup (k + 1 + numbersBefore groupCount ps x.1) := by
  induction ps generalizing k with
  | nil => rfl
  | cons p ps ih =>
    rw [numbered, List.findSome?_cons, matchAt?_group, firstMatch?]
    cases p.matchAt? place with
    | some r => rfl
    | none =>
      dsimp only [Option.map_none]
      rw [ih, Option.map_map]
      congr 1
      funext x
      rw [Function.comp_apply, numbersBefore_succ]
      congr 1
      omega

theorem matchAt?_numbered {ps : List Pattern} (hne : ps ≠ []) (place : Cursor) :
    (alts (numbered 0 ps)).matchAt? place =
      (firstMatch? ps place).map fun x => x.2.inGroup (1 + numbersBefore groupCount ps x.1) := by
  have hnumbered : numbered 0 ps ≠ [] := by
    cases ps with
    | nil => exact absurd rfl hne
    | cons p ps => exact List.cons_ne_nil _ _
  rw [matchAt?_alts hnumbered, findSome?_numbered]

theorem Progress.le_of_passed_inGroup {n m : Nat} {r : Progress} (h : (r.inGroup n).passed m = true) :
    n ≤ m := by
  simp only [passed, inGroup, List.contains_eq_mem, List.mem_cons, List.mem_map, decide_eq_true_eq]
    at h
  omega

theorem Progress.passed_inGroup_self (n : Nat) (r : Progress) : (r.inGroup n).passed n = true := by
  simp [passed, inGroup]

def KeepsGroups (p : Pattern) : Prop := p.liveGroups = p.groupCount

instance (p : Pattern) : Decidable p.KeepsGroups := inferInstanceAs (Decidable (_ = _))

theorem numbersBefore_live_le (ps : List Pattern) (i : Nat) :
    numbersBefore liveGroups ps i ≤ numbersBefore groupCount ps i := by
  induction ps generalizing i with
  | nil => simp [numbersBefore]
  | cons p ps ih =>
    cases i with
    | zero => exact Nat.le_refl _
    | succ i =>
      have := p.liveGroups_le_groupCount
      have := ih i
      rw [numbersBefore_succ, numbersBefore_succ]
      omega

theorem numbersBefore_live_eq_iff (ps : List Pattern) (i : Nat) :
    numbersBefore liveGroups ps i = numbersBefore groupCount ps i ↔
      ∀ p ∈ ps.take i, p.KeepsGroups := by
  induction ps generalizing i with
  | nil => simp [numbersBefore]
  | cons p ps ih =>
    cases i with
    | zero => simp [numbersBefore]
    | succ i =>
      have := p.liveGroups_le_groupCount
      have := numbersBefore_live_le ps i
      rw [numbersBefore_succ, numbersBefore_succ, List.take_succ_cons, List.forall_mem_cons, ← ih,
        KeepsGroups]
      omega

end Pattern

namespace Lexer

open Pattern

section FirstGroup

variable {r : Progress} {n : Nat} (hfirst : ∀ m, r.passed m = true → n ≤ m)

include hfirst

theorem passed_eq_false {m : Nat} (hm : m < n) : r.passed m = false := by
  rw [← Bool.not_eq_true]
  exact fun h => Nat.not_le.2 hm (hfirst m h)

theorem le_of_findIdx?_groupNumbers {ps : List Pattern} {g i j : Nat}
    (hn : g + numbersBefore liveGroups ps i ≤ n)
    (h : (groupNumbers g ps).findIdx? r.passed = some j) : i ≤ j := by
  induction ps generalizing g i j with
  | nil => cases h
  | cons p ps ih =>
    cases i with
    | zero => exact Nat.zero_le j
    | succ i =>
      rw [numbersBefore_succ] at hn
      rw [groupNumbers, List.findIdx?_cons, passed_eq_false hfirst (by omega)] at h
      obtain ⟨j, hj, rfl⟩ := Option.map_eq_some_iff.1 h
      exact Nat.succ_le_succ (ih (by omega) hj)

theorem findIdx?_groupNumbers (hself : r.passed n = true) {ps : List Pattern} {g i : Nat}
    (hi : i < ps.length) (hn : g + numbersBefore liveGroups ps i ≤ n) :
    (groupNumbers g ps).findIdx? r.passed = some i ↔ g + numbersBefore liveGroups ps i = n := by
  induction ps generalizing g i with
  | nil => cases hi
  | cons p ps ih =>
    rw [groupNumbers, List.findIdx?_cons]
    cases i with
    | zero =>
      rw [numbersBefore_zero, Nat.add_zero] at hn ⊢
      rcases Nat.lt_or_eq_of_le hn with hlt | rfl
      · simp [passed_eq_false hfirst hlt, Nat.ne_of_lt hlt]
      · simp [hself]
    | succ i =>
      rw [numbersBefore_succ] at hn ⊢
      have := @ih (g + p.liveGroups + 1) i (Nat.lt_of_succ_lt_succ hi) (by omega)
      rw [show g + (p.liveGroups + 1 + numbersBefore liveGroups ps i) =
        g + p.liveGroups + 1 + numbersBefore liveGroups ps i by omega, ← this,
        passed_eq_false hfirst (by omega)]
      simp

end FirstGroup

theorem findIdx?_inGroup_iff {alone : List Pattern} {p : Cursor} {i : Nat} {r : Progress}
    (hfirst : firstMatch? alone p = some (i, r)) :
    (groupNumbers 1 alone).findIdx?
        (r.inGroup (1 + numbersBefore groupCount alone i)).passed = some i ↔
      ∀ q ∈ alone.take i, q.KeepsGroups := by
  have hle := numbersBefore_live_le alone i
  rw [findIdx?_groupNumbers (fun _ => Progress.le_of_passed_inGroup)
    (Progress.passed_inGroup_self _ r) (lt_length_of_firstMatch? hfirst) (by omega),
    Nat.add_left_cancel_iff, numbersBefore_live_eq_iff]

theorem toList_alternation (specs : List Spec) :
    (alternation specs).toList = glue (specs.map (·.pattern.toList)) := by
  rw [alternation, String.toList_intercalate]
  induction specs with
  | nil => rfl
  | cons s specs ih =>
    cases specs with
    | nil => simp [glue]
    | cons s' specs =>
      simp only [List.map_cons] at ih ⊢
      rw [List.intercalate_cons_cons, ih]
      simp [glue]

theorem readPattern_eq_ok_iff {text : String} {p : Pattern} :
    readPattern text = .ok p ↔ read text.toList = .ok p := by
  unfold readPattern
  cases read text.toList with
  | error e => exact ⟨nofun, nofun⟩
  | ok q => exact ⟨fun h => by cases h; rfl, fun h => by cases h; rfl⟩

abbrev Denote (specs : List Spec) (ps : List Pattern) : Prop :=
  List.Forall₂ (fun s p => read s.pattern.toList = .ok p) specs ps

theorem exists_denote_of_ofConfig {c : Config} {lexer : Lexer} (h : ofConfig c = .ok lexer) :
    ∃ alone, Denote (Spec.all c) alone ∧ read (alternation (Spec.all c)).toList = .ok lexer.pattern ∧
      lexer.specs = Spec.all c ∧ lexer.groups = groupNumbers 1 alone := by
  obtain ⟨-, -, h⟩ := bind_eq_ok.1 h
  obtain ⟨-, -, h⟩ := bind_eq_ok.1 h
  obtain ⟨alone, halone, h⟩ := bind_eq_ok.1 h
  obtain ⟨pattern, hpattern, h⟩ := bind_eq_ok.1 h
  cases h
  refine ⟨alone, ?_, readPattern_eq_ok_iff.1 hpattern, rfl, rfl⟩
  exact (mapM_eq_ok_iff.1 halone).imp fun _ _ => readPattern_eq_ok_iff.1

def firstOf? : List Spec → Cursor → Option (Nat × Cursor)
  | [], _ => none
  | s :: specs, p =>
    match (readPattern s.pattern).toOption.bind (·.matchAt? p) with
    | some r => some (0, r.cursor)
    | none => (firstOf? specs p).map fun x => (x.1 + 1, x.2)

theorem firstOf?_eq {specs : List Spec} {ps : List Pattern} (h : Denote specs ps) (p : Cursor) :
    firstOf? specs p = (firstMatch? ps p).map fun x => (x.1, x.2.cursor) := by
  induction h with
  | nil => rfl
  | @cons s q specs ps hs _ ih =>
    rw [firstOf?, firstMatch?, readPattern_eq_ok_iff.2 hs, Except.toOption, Option.bind_some]
    cases q.matchAt? p with
    | some r => rfl
    | none =>
      dsimp only
      rw [ih, Option.map_map, Option.map_map]
      rfl

theorem firstOf?_append {specs : List Spec} {p : Cursor} {x : Nat × Cursor}
    (h : firstOf? specs p = some x) (more : List Spec) : firstOf? (specs ++ more) p = some x := by
  induction specs generalizing x with
  | nil => cases h
  | cons s specs ih =>
    rw [List.cons_append, firstOf?]
    rw [firstOf?] at h
    cases hs : (readPattern s.pattern).toOption.bind (·.matchAt? p) with
    | some r =>
      rw [hs] at h
      exact h
    | none =>
      rw [hs] at h
      obtain ⟨y, hy, rfl⟩ := Option.map_eq_some_iff.1 h
      dsimp only
      rw [ih hy]
      rfl

/-- What one finds by trying the specs one by one, each by itself. -/
def tryEach? (lexer : Lexer) (p : Cursor) : Option (Nat × Cursor) :=
  (firstOf? lexer.specs p).filter fun x => p.offset < x.2.offset

end Lexer

def Spec.KeepsGroups (s : Spec) : Prop :=
  ∀ p, Pattern.read s.pattern.toList = .ok p → p.KeepsGroups

theorem Spec.Plain.keepsGroups {s : Spec} (h : s.Plain) : s.KeepsGroups := fun p hp => by
  have := h.groupCount_eq hp
  have := p.liveGroups_le_groupCount
  unfold Pattern.KeepsGroups
  omega

namespace Lexer

open Pattern

theorem forall_take_keepsGroups_iff {specs : List Spec} {ps : List Pattern} (h : Denote specs ps)
    (i : Nat) : (∀ p ∈ ps.take i, p.KeepsGroups) ↔ ∀ s ∈ specs.take i, s.KeepsGroups := by
  induction h generalizing i with
  | nil => simp
  | @cons s p specs ps hs _ ih =>
    cases i with
    | zero => simp
    | succ i =>
      have hp : p.KeepsGroups ↔ s.KeepsGroups :=
        ⟨fun h q hq => by cases hs.symm.trans hq; exact h, fun h => h p hs⟩
      rw [List.take_succ_cons, List.take_succ_cons, List.forall_mem_cons, List.forall_mem_cons, hp, ih]

theorem forall_take_all_iff (c : Config) (i : Nat) :
    (∀ s ∈ (Spec.all c).take i, s.KeepsGroups) ↔
      ∀ s ∈ c.custom.take i, (Spec.ofCustom s).KeepsGroups := by
  have hbuiltin (n : Nat) : ∀ s ∈ (Spec.builtin c).take n, s.KeepsGroups := fun s hs =>
    (Spec.plain_builtin (List.mem_of_mem_take hs)).keepsGroups
  rw [Spec.all_eq, List.take_append, List.forall_mem_append, ← List.map_take,
    List.forall_mem_map]
  exact and_iff_left (hbuiltin _)

/-- The pattern and the groups of a lexer are made of these patterns, one for each spec. -/
structure Glued (lexer : Lexer) (alone : List Pattern) : Prop where
  denote : Denote lexer.specs alone
  ne_nil : alone ≠ []
  pattern : lexer.pattern = alts (numbered 0 alone)
  groups : lexer.groups = groupNumbers 1 alone

theorem exists_glued_of_ofConfig {c : Config} {lexer : Lexer} (h : ofConfig c = .ok lexer)
    (hclosed : ∀ s ∈ c.custom, ClosesComments s.pattern.toList) :
    lexer.specs = Spec.all c ∧ ∃ alone, lexer.Glued alone := by
  obtain ⟨alone, hdenote, hread, hspecs, hgroups⟩ := exists_denote_of_ofConfig h
  have hall : ∀ s ∈ Spec.all c, ClosesComments s.pattern.toList := by
    rw [Spec.all_eq, List.forall_mem_append, List.forall_mem_map]
    exact ⟨hclosed, fun s hs => (Spec.plain_builtin hs).embeds.closesComments⟩
  refine ⟨hspecs, alone, hspecs ▸ hdenote, ?_, ?_, hgroups⟩
  · rintro rfl
    simp [Spec.all, Denote] at hdenote
  · rw [toList_alternation] at hread
    refine read_glue ?_ ?_ hread
    · rw [List.forall₂_map_left_iff]
      exact ((List.forall₂_and_left ..).2 ⟨hall, hdenote⟩).imp fun _ _ => And.symm
    · simp [Spec.all]

namespace Glued

variable {lexer : Lexer} {alone : List Pattern} (h : lexer.Glued alone) {p : Cursor}

include h

theorem tryEach?_eq_some_iff {i : Nat} {q : Cursor} :
    lexer.tryEach? p = some (i, q) ↔
      ∃ r, firstMatch? alone p = some (i, r) ∧ r.cursor = q ∧ p.offset < q.offset := by
  rw [tryEach?, firstOf?_eq h.denote, Option.filter_eq_some_iff]
  cases firstMatch? alone p with
  | none => simp
  | some x =>
    rcases x with ⟨j, r⟩
    constructor
    · rintro ⟨⟨⟩, htaken⟩
      exact ⟨r, rfl, rfl, of_decide_eq_true htaken⟩
    · rintro ⟨r, ⟨⟩, rfl, htaken⟩
      exact ⟨rfl, decide_eq_true htaken⟩

theorem branch?_eq_some_iff {j : Nat} {q : Cursor} :
    lexer.branch? p = some (j, q) ↔
      ∃ i r, firstMatch? alone p = some (i, r) ∧
        (groupNumbers 1 alone).findIdx?
          (r.inGroup (1 + numbersBefore groupCount alone i)).passed = some j ∧
        r.cursor = q ∧ p.offset < q.offset := by
  rw [branch?, h.pattern, matchAt?_numbered h.ne_nil, h.groups]
  cases firstMatch? alone p with
  | none => simp
  | some x =>
    rcases x with ⟨i, r⟩
    dsimp only [Option.map_some]
    constructor
    · intro hbranch
      split at hbranch
      · next k hfind =>
        split at hbranch
        · next htaken =>
          cases hbranch
          exact ⟨i, r, rfl, hfind, rfl, htaken⟩
        · cases hbranch
      · cases hbranch
    · rintro ⟨i, r, ⟨⟩, hfind, rfl, htaken⟩
      rw [hfind]
      exact if_pos htaken

theorem exists_tryEach?_of_branch? {j : Nat} {q : Cursor} (hbranch : lexer.branch? p = some (j, q)) :
    ∃ i ≤ j, lexer.tryEach? p = some (i, q) := by
  obtain ⟨i, r, hfirst, hfind, hr⟩ := h.branch?_eq_some_iff.1 hbranch
  have hle := numbersBefore_live_le alone i
  refine ⟨i, ?_, h.tryEach?_eq_some_iff.2 ⟨r, hfirst, hr⟩⟩
  exact le_of_findIdx?_groupNumbers (fun _ => Progress.le_of_passed_inGroup) (by omega) hfind

theorem branch?_eq_iff :
    lexer.branch? p = lexer.tryEach? p ↔
      ∀ i q, lexer.tryEach? p = some (i, q) → ∀ x ∈ alone.take i, x.KeepsGroups := by
  constructor
  · intro heq i q htry
    obtain ⟨j, r, hfirst, hfind, -⟩ := h.branch?_eq_some_iff.1 (heq.trans htry)
    obtain ⟨r', hfirst', -⟩ := h.tryEach?_eq_some_iff.1 htry
    cases hfirst.symm.trans hfirst'
    exact (findIdx?_inGroup_iff hfirst).1 hfind
  · intro hkeep
    refine Option.ext fun ⟨j, q⟩ => ?_
    constructor
    · intro hbranch
      obtain ⟨i, r, hfirst, hfind, hr⟩ := h.branch?_eq_some_iff.1 hbranch
      have htry := h.tryEach?_eq_some_iff.2 ⟨r, hfirst, hr⟩
      cases hfind.symm.trans ((findIdx?_inGroup_iff hfirst).2 (hkeep i q htry))
      exact htry
    · intro htry
      obtain ⟨r, hfirst, hr⟩ := h.tryEach?_eq_some_iff.1 htry
      exact h.branch?_eq_some_iff.2
        ⟨j, r, hfirst, (findIdx?_inGroup_iff hfirst).2 (hkeep j q htry), hr⟩

end Glued

variable {c : Config} {lexer : Lexer}

theorem branch?_eq_tryEach?_of_builtin (h : ofConfig c = .ok lexer) (hcustom : c.custom = [])
    (p : Cursor) : lexer.branch? p = lexer.tryEach? p := by
  obtain ⟨hspecs, alone, hglued⟩ := exists_glued_of_ofConfig h (by simp [hcustom])
  refine hglued.branch?_eq_iff.2 fun i q _ => ?_
  rw [forall_take_keepsGroups_iff hglued.denote, hspecs, forall_take_all_iff, hcustom]
  simp

/-- One step is what one gets by trying the specs one by one, if and only if no spec of one's own
before the one found has a group under a repetition of no time. Otherwise the step takes the same
text for a later spec, or stalls. -/
theorem branch?_eq_tryEach?_iff (h : ofConfig c = .ok lexer)
    (hclosed : ∀ s ∈ c.custom, ClosesComments s.pattern.toList) (place : Place) :
    (lexer.branch? place.cursor = lexer.tryEach? place.cursor ↔
      ∀ i q, lexer.tryEach? place.cursor = some (i, q) →
        ∀ s ∈ c.custom.take i, (Spec.ofCustom s).KeepsGroups) ∧
    ((∀ i q, lexer.tryEach? place.cursor = some (i, q) →
        ∀ s ∈ c.custom.take i, (Spec.ofCustom s).KeepsGroups) →
      lexer.step place = lexer.stepTo place (lexer.tryEach? place.cursor)) ∧
    (∀ j q, lexer.branch? place.cursor = some (j, q) →
      ∃ i ≤ j, lexer.tryEach? place.cursor = some (i, q)) := by
  obtain ⟨hspecs, alone, hglued⟩ := exists_glued_of_ofConfig h hclosed
  have hiff := hglued.branch?_eq_iff (p := place.cursor)
  simp only [forall_take_keepsGroups_iff hglued.denote, hspecs, forall_take_all_iff] at hiff
  refine ⟨hiff, fun hkeep => ?_, fun j q hj => hglued.exists_tryEach?_of_branch? hj⟩
  rw [step, hiff.2 hkeep]

theorem branch?_eq_tryEach?_sharp :
    ∃ lexer, ofConfig { Config.bare with custom := [.skip "#(\\w|-)*"] } = .ok lexer ∧
      lexer.branch? (.ofText [' ']) = lexer.tryEach? (.ofText [' ']) ∧
      lexer.tryEach? (.ofText [' ']) = some (1, ⟨[' '], [], 1⟩) := by
  obtain ⟨lexer, h, htry⟩ :
      ∃ lexer, ofConfig { Config.bare with custom := [.skip "#(\\w|-)*"] } = .ok lexer ∧
        lexer.tryEach? (.ofText [' ']) = some (1, ⟨[' '], [], 1⟩) := by decide +kernel
  refine ⟨lexer, h, ?_, htry⟩
  refine (branch?_eq_tryEach?_iff h (by decide) ⟨"", .ofText [' '], 1⟩).1.2 fun i q hi s hs => ?_
  obtain ⟨rfl, rfl⟩ : 1 = i ∧ _ := by simpa using htry.symm.trans hi
  obtain rfl := List.mem_singleton.1 hs
  exact fun p hp => by
    cases hp
    decide

/-- A group that no match passes through takes a number that is not counted. -/
theorem branch?_ne_tryEach?_of_dropped :
    ∃ lexer, ofConfig { Config.bare with custom := [.skip "(a)\x7b0\x7db"] } = .ok lexer ∧
      lexer.branch? (.ofText [' ']) = some (2, ⟨[' '], [], 1⟩) ∧
      lexer.tryEach? (.ofText [' ']) = some (1, ⟨[' '], [], 1⟩) := by
  decide +kernel

theorem branch?_ne_tryEach?_of_comment :
    ∃ lexer, ofConfig { Config.bare with custom := [.skip "(?x)a#", .skip "b\nc"] } = .ok lexer ∧
      lexer.branch? (.ofText [' ']) = some (1, ⟨[' '], [], 1⟩) ∧
      lexer.tryEach? (.ofText [' ']) = some (2, ⟨[' '], [], 1⟩) := by
  decide +kernel

end Lexer

end Packrat
