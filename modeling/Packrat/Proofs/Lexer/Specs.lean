import Packrat.Lexer
import Packrat.Proofs.Pattern.Alternation

namespace Packrat

namespace Pattern

def word (text : List Char) : Pattern := cats (text.map fun c => set (.single c))

namespace Item

def ofChar (c : Char) : Item := { pattern := .set (.single c) }

def ofWord (text : List Char) : Item := sequence (text.map ofChar)

@[simp] theorem pattern_ofWord (text : List Char) : (ofWord text).pattern = word text := by
  simp [ofWord, sequence, word, Function.comp_def, ofChar]

theorem depth_ofWord (text : List Char) : (ofWord text).depth ≤ 1 := by
  refine depthOf_le fun x hx => ?_
  obtain ⟨c, -, rfl⟩ := List.mem_map.1 hx
  exact Nat.le_refl 0

end Item

theorem skip_of_flags {st : State} (hst : st.flags = {}) (cs : List Char) : st.flags.skip cs = cs := by
  rw [hst]
  rfl

theorem reads_char {st : State} (hst : st.flags = {}) (c : Char) (more : List Char) :
    Reads st ((if isMeta c then ['\\', c] else [c]) ++ more) (st.push (Item.ofChar c)) more := by
  split
  · next hc =>
    have hdigit : c.isDigit = false := by
      have hmeta : metaChars.all (fun c => !c.isDigit) = true := by decide
      simpa using List.all_eq_true.1 hmeta c (List.contains_iff_mem.1 hc)
    have hescape : readEscape st.flags (c :: more) = .ok (.char c, more) := by
      simp [readEscape, hdigit, isEscapable, hc]
      rfl
    refine .step (skip_of_flags hst _) ?_ (.refl _ _)
    change ((readEscape st.flags (c :: more) >>= fun x => _) >>= fun x => _) = _
    rw [hescape, hst]
    rfl
  · next hc =>
    have hsigns : c ∉ signs := by
      have hmeta : signs.all isMeta = true := by decide
      exact fun h => hc (List.all_eq_true.1 hmeta c h)
    refine .step (skip_of_flags hst _) ?_ (.refl _ _)
    rw [step, readOp_of_not_mem st.flags hsigns, hst]
    rfl

def State.pushWord (st : State) (text : List Char) : State :=
  { st with level := { st.level with items := (text.map .ofChar).reverse ++ st.level.items } }

def State.divide (st : State) : State := { st with level := st.level.branch }

theorem reads_escape {st : State} (hst : st.flags = {}) (text more : List Char) :
    Reads st (escape text ++ more) (st.pushWord text) more := by
  induction text generalizing st with
  | nil => exact .refl _ _
  | cons c text ih =>
    have hc := reads_char hst c (escape text ++ more)
    have htext := @ih (st.push (.ofChar c)) hst
    simpa [escape, State.pushWord, State.push, Level.push] using hc.trans htext

theorem reads_bar {st : State} (hst : st.flags = {}) (more : List Char) :
    Reads st ('|' :: more) st.divide more :=
  .step (skip_of_flags hst _) rfl (.refl _ _)

theorem reads_words {st : State} (hst : st.Fresh) (text : List Char) (texts : List (List Char))
    (more : List Char) :
    ∃ st', Reads st (List.intercalate ['|'] ((text :: texts).map escape) ++ more) st' more ∧
      st'.frames = [] ∧ st'.flags = {} ∧ st'.names = st.names ∧
      st'.level.branch.branches =
        ((text :: texts).map Item.ofWord).reverse ++ st.level.branches := by
  induction texts generalizing st text with
  | nil =>
    refine ⟨st.pushWord text, ?_, hst.frames, hst.flags, rfl, ?_⟩
    · rw [List.map_singleton, List.intercalate_singleton]
      exact reads_escape hst.flags text more
    · simp [State.pushWord, Level.branch, hst.items, Item.ofWord]
  | cons text' texts ih =>
    have hfresh : (st.pushWord text).divide.Fresh := ⟨hst.frames, rfl, hst.flags⟩
    obtain ⟨st', hreads, hframes, hflags, hnames, hlevel⟩ := ih hfresh text'
    refine ⟨st', ?_, hframes, hflags, hnames, ?_⟩
    · have htext := reads_escape hst.flags text
        ('|' :: (List.intercalate ['|'] ((text' :: texts).map escape) ++ more))
      have hbar := reads_bar (show (st.pushWord text).flags = {} from hst.flags)
        (List.intercalate ['|'] ((text' :: texts).map escape) ++ more)
      simpa using htext.trans (hbar.trans hreads)
    · rw [hlevel]
      simp [State.divide, State.pushWord, Level.branch, hst.items, Item.ofWord]

theorem depth_choice_words (texts : List (List Char)) :
    (Item.choice (texts.map .ofWord)).depth ≤ 2 := by
  refine Item.depthOf_le fun x hx => ?_
  obtain ⟨text, -, rfl⟩ := List.mem_map.1 hx
  exact Item.depth_ofWord text

theorem read_words (texts : List (List Char)) :
    read (List.intercalate ['|'] (texts.map escape)) = .ok (alts (texts.map word)) := by
  cases texts with
  | nil => rfl
  | cons text texts =>
    obtain ⟨st, hreads, hframes, hflags, -, hlevel⟩ := reads_words .initial text texts []
    rw [List.append_nil] at hreads
    rw [read_eq, hreads.readAll_eq, readAll_eq_finish (skip_of_flags hflags []),
      State.finish_eq_ok_iff]
    have hfinish : st.level.finish = .choice ((text :: texts).map .ofWord) := by
      rw [Level.finish, hlevel]
      simp
    rw [hfinish]
    refine ⟨hframes, Nat.le_trans (depth_choice_words _) (by decide), ?_⟩
    simp [Item.choice, Function.comp_def]

theorem embeds_words (texts : List (List Char)) :
    Embeds (List.intercalate ['|'] (texts.map escape)) := by
  cases texts with
  | nil => exact .of_reads (read_words []) (.refl _ _) rfl rfl rfl (by decide)
  | cons text texts =>
    obtain ⟨st, hreads, hframes, hflags, hnames, hlevel⟩ := reads_words .initial text texts [')']
    refine .of_reads (read_words _) hreads (skip_of_flags hflags _) hframes hnames ?_
    rw [Level.finish, hlevel, List.append_nil, List.reverse_reverse]
    exact Nat.add_le_of_le_sub (by decide) (Nat.le_trans (depth_choice_words _) (by decide))

theorem groupCount_words (texts : List (List Char)) : (alts (texts.map word)).groupCount = 0 := by
  have hword (text : List Char) : (word text).groupCount = 0 := by
    simp [word, groupCount_cats, Function.comp_def, groupCount]
  simp [groupCount_alts, Function.comp_def, hword]

def digits (least : Nat) : Pattern := rep least none true (set (.range '0' '9'))

def optional (p : Pattern) : Pattern := rep 0 (some 1) true p

def blanks : Pattern := rep 1 none true (set (.unions [.single ' ', .single '\t', .single '\r']))

def lineBreaks : Pattern := rep 1 none true (set (.single '\n'))

def identifier : Pattern :=
  cat (set (.unions [.range 'a' 'z', .range 'A' 'Z', .single '_']))
    (rep 0 none true (set (.unions [.range 'a' 'z', .range 'A' 'Z', .range '0' '9', .single '_'])))

def hexNumber : Pattern :=
  cats [set (.single '0'), set (.single 'x'),
    rep 1 none true (set (.unions [.range '0' '9', .range 'a' 'f', .range 'A' 'F']))]

def exponent : Pattern :=
  optional (cats [set (.single 'e'), optional (alt (set (.single '+')) (set (.single '-'))), digits 1])

def fraction : Pattern := cats [digits 0, set (.single '.'), digits 1, exponent]

def wholeNumber : Pattern := cat (digits 1) exponent

def quoted (q : Char) : Pattern :=
  cats [set (.single q),
    rep 0 none true (alt (cat (set (.single '\\')) (set (.single q))) (set (.compl (.single q)))),
    set (.single q)]

def base : List Pattern :=
  [blanks, lineBreaks, identifier, hexNumber, fraction, wholeNumber, quoted '"', quoted '\'']

def catchAll : Pattern := cat (set (.compl (.single '\n'))) (rep 0 none true (set (.compl .blank)))

theorem read_base :
    List.Forall₂ (fun s p => read s.pattern.toList = .ok p) Spec.base base := by
  repeat' constructor

theorem read_catchAll : read Spec.catchAll.pattern.toList = .ok catchAll := rfl

end Pattern

namespace Spec

open Pattern

/-- A spec that takes no numbers from its neighbours and fits between them. -/
structure Plain (s : Spec) : Prop where
  embeds : Embeds s.pattern.toList
  denotes : ∃ p, read s.pattern.toList = .ok p ∧ p.groupCount = 0

theorem Plain.groupCount_eq {s : Spec} (h : s.Plain) {p : Pattern}
    (hp : read s.pattern.toList = .ok p) : p.groupCount = 0 := by
  obtain ⟨q, hq, hcount⟩ := h.denotes
  cases hq.symm.trans hp
  exact hcount

theorem embeds_base : ∀ s ∈ base, Embeds s.pattern.toList := by
  simp only [base, List.forall_mem_cons, List.not_mem_nil, false_imp_iff, implies_true, and_true]
  refine ⟨?_, ?_, ?_, ?_, ?_, ?_, ?_, ?_⟩
  all_goals
    apply Embeds.of_reads
    case hreads =>
      repeat apply Reads.step rfl rfl
      exact .refl _ _
    all_goals first | rfl | decide

theorem embeds_catchAll : Embeds catchAll.pattern.toList :=
  .of_reads read_catchAll (.step rfl rfl (.step rfl rfl (.step rfl rfl (.refl _ _)))) rfl rfl rfl
    (by decide)

theorem plain_base {s : Spec} (hs : s ∈ base) : s.Plain := by
  have hgroups : ∀ p ∈ Pattern.base, p.groupCount = 0 := by decide
  obtain ⟨p, hp, hread⟩ := exists_right_of_mem read_base hs
  exact ⟨embeds_base s hs, p, hread, hgroups p hp⟩

theorem toList_literal {literals : List String} {s : Spec} (h : literal? literals = some s) :
    s.pattern.toList =
      List.intercalate ['|'] (((literalOrder literals).map String.toList).map escape) := by
  unfold literal? at h
  split at h
  · cases h
  · cases h
    simp [String.toList_intercalate, Function.comp_def]

theorem plain_literal {literals : List String} {s : Spec} (h : literal? literals = some s) :
    s.Plain := by
  have htext := toList_literal h
  exact ⟨htext ▸ embeds_words _, _, htext ▸ read_words _, groupCount_words _⟩

theorem plain_catchAll : catchAll.Plain := ⟨embeds_catchAll, _, read_catchAll, rfl⟩

def builtin (c : Config) : List Spec := base ++ (literal? c.literals).toList ++ [catchAll]

theorem all_eq (c : Config) : all c = c.custom.map ofCustom ++ builtin c := by
  simp [all, builtin]

theorem plain_builtin {c : Config} {s : Spec} (hs : s ∈ builtin c) : s.Plain := by
  simp only [builtin, List.mem_append, Option.mem_toList, List.mem_singleton] at hs
  rcases hs with (hs | hs) | rfl
  · exact plain_base hs
  · exact plain_literal hs
  · exact plain_catchAll

end Spec

end Packrat
