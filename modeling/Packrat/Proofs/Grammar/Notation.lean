import Packrat.Proofs.Grammar.Valid

namespace Packrat

namespace Text

def Unbroken (w : List Char) : Prop := w ≠ [] ∧ ∀ c ∈ w, isBlank c = false

variable {w cs front rest : List Char} {ws : List (List Char)} {c : Char}

theorem unbroken_reverse (h : ∀ c ∈ front, isBlank c = false) (hne : ¬front.isEmpty = true) :
    Unbroken front.reverse :=
  ⟨by simpa using hne, fun c hc => h c (List.mem_reverse.1 hc)⟩

theorem unbroken_of_mem_wordsAfter (hfront : ∀ c ∈ front, isBlank c = false)
    (h : w ∈ wordsAfter front cs) : Unbroken w := by
  fun_induction wordsAfter front cs with
  | case1 => cases h
  | case2 front hne => exact List.mem_singleton.1 h ▸ unbroken_reverse hfront hne
  | case3 front c cs _ _ ih => exact ih (List.forall_mem_nil _) h
  | case4 front c cs _ hne ih =>
    rcases List.mem_cons.1 h with rfl | h
    · exact unbroken_reverse hfront hne
    · exact ih (List.forall_mem_nil _) h
  | case5 front c cs hc ih => exact ih (List.forall_mem_cons.2 ⟨by simpa using hc, hfront⟩) h

theorem unbroken_of_mem_words (h : w ∈ words cs) : Unbroken w :=
  unbroken_of_mem_wordsAfter (List.forall_mem_nil _) h

theorem wordsAfter_append (h : ∀ c ∈ w, isBlank c = false) (front rest : List Char) :
    wordsAfter front (w ++ rest) = wordsAfter (w.reverse ++ front) rest := by
  induction w generalizing front with
  | nil => rfl
  | cons c w ih =>
    obtain ⟨hc, hw⟩ := List.forall_mem_cons.1 h
    rw [List.cons_append, wordsAfter, if_neg (by simp [hc]), ih hw, List.reverse_cons,
      List.append_assoc]
    rfl

theorem words_of_unbroken (h : Unbroken w) : words w = [w] := by
  have hread := wordsAfter_append h.2 [] []
  rw [List.append_nil, List.append_nil] at hread
  rw [words, hread, wordsAfter, if_neg (by simpa using h.1), List.reverse_reverse]

theorem words_append_blank (h : Unbroken w) (hc : isBlank c = true) (rest : List Char) :
    words (w ++ c :: rest) = w :: words rest := by
  rw [words, wordsAfter_append h.2, List.append_nil, wordsAfter, if_pos hc,
    if_neg (by simpa using h.1), List.reverse_reverse, words]

theorem words_intercalate (h : ∀ w ∈ ws, Unbroken w) : words (List.intercalate [' '] ws) = ws := by
  induction ws with
  | nil => rfl
  | cons w ws ih =>
    obtain ⟨hw, hws⟩ := List.forall_mem_cons.1 h
    cases ws with
    | nil => rw [List.intercalate_singleton, words_of_unbroken hw]
    | cons w' ws =>
      rw [List.intercalate_cons_cons, List.append_assoc, List.singleton_append,
        words_append_blank hw (by decide), ih hws]

end Text

theorem Kind.text_ofText (s : String) : (ofText s).text = s := by
  rw [ofText]
  split
  · next heq => simpa using List.find?_some heq
  · rfl

theorem Symbol.display_ofWord (word : String) : (ofWord word).display = word := by
  rw [ofWord]
  split
  · next rest heq =>
    rw [display, ← String.toList_inj, String.toList_append, heq, String.toList_ofList (l := rest)]
    rfl
  · rw [display, Kind.text_ofText]

namespace Rule

variable {V : Type}

def written (r : Rule V) : String := String.intercalate " " (r.rhs.map Symbol.display)

theorem text_eq (r : Rule V) : r.text = s!"#{r.lhs} <- " ++ r.written := rfl

theorem rhs_ofNotation (lhs rhs : String) : (ofNotation lhs rhs : Rule V).rhs =
    (Text.words rhs.toList).map fun w => Symbol.ofWord (String.ofList w) := rfl

theorem toList_written (lhs rhs : String) : (ofNotation lhs rhs : Rule V).written.toList =
    List.intercalate [' '] (Text.words rhs.toList) := by
  rw [written, rhs_ofNotation, String.toList_intercalate, List.map_map, List.map_map]
  refine congrArg (List.intercalate [' ']) ((List.map_congr_left fun w _ => ?_).trans (List.map_id _))
  rw [Function.comp_apply, Function.comp_apply, Symbol.display_ofWord, String.toList_ofList]
  rfl

theorem ofNotation_written (lhs lhs' rhs : String) :
    (ofNotation lhs' (ofNotation lhs rhs : Rule V).written : Rule V) = ofNotation lhs' rhs := by
  rw [ofNotation, toList_written, Text.words_intercalate fun w hw => Text.unbroken_of_mem_words hw]
  rfl

theorem notMem_of_isNonTerminalName {name : String} (h : isNonTerminalName name = true) :
    ' ' ∉ name.toList := by
  obtain ⟨c, rest, hname, hc, hrest⟩ := (isNonTerminalName_iff name).1 h
  have hspace : ¬ContinuesName ' ' := by
    unfold ContinuesName StartsName
    decide
  rw [hname]
  intro hmem
  rcases List.mem_cons.1 hmem with rfl | hmem
  · exact hspace (.inl hc)
  · exact hspace (hrest ' ' hmem)

theorem toList_text (r : Rule V) :
    r.text.toList = '#' :: (r.lhs.toList ++ ' ' :: '<' :: '-' :: ' ' :: r.written.toList) := by
  rw [text_eq, String.toList_append, String.toList_append, String.toList_append, List.append_assoc,
    List.append_assoc]
  rfl

theorem eq_of_text_eq {r r' : Rule V} (hr : isNonTerminalName r.lhs = true)
    (hr' : isNonTerminalName r'.lhs = true) (h : r.text = r'.text) :
    r.lhs = r'.lhs ∧ r.written = r'.written := by
  -- The name of the left side ends at the first space, so a text can be split in one way only.
  have hname {name : String} (hname : isNonTerminalName name = true) (rest : List Char) :
      (name.toList ++ ' ' :: rest).takeWhile (· != ' ') = name.toList := by
    have hspace := notMem_of_isNonTerminalName hname
    have hpos : ∀ c ∈ name.toList, (c != ' ') = true := fun c hc =>
      bne_iff_ne.2 fun heq => hspace (heq ▸ hc)
    rw [List.takeWhile_append_of_pos hpos, List.takeWhile_cons_of_neg (by decide), List.append_nil]
  rw [← String.toList_inj, toList_text, toList_text, List.cons.injEq] at h
  have hlhs := congrArg (List.takeWhile (· != ' ')) h.2
  rw [hname hr, hname hr'] at hlhs
  have hrest := h.2
  rw [hlhs] at hrest
  have hwritten := List.append_cancel_left hrest
  simp only [List.cons.injEq, true_and] at hwritten
  exact ⟨String.toList_inj.1 hlhs, String.toList_inj.1 hwritten⟩

/-- What stands behind the arrow of a rule in notation is read as the rule itself. So two such rules
whose left sides are names have the same text if and only if they have the same left side and the
same symbols. -/
theorem text_ofNotation {lhs rhs lhs' rhs' : String} {r r' : Rule V} (hr : r = ofNotation lhs rhs)
    (hr' : r' = ofNotation lhs' rhs') :
    (∃ part, r.text = s!"#{r.lhs} <- " ++ part ∧ ofNotation lhs part = r) ∧
      (isNonTerminalName r.lhs = true → isNonTerminalName r'.lhs = true →
        (r.text = r'.text ↔ r.lhs = r'.lhs ∧ r.rhs = r'.rhs)) := by
  subst hr hr'
  refine ⟨⟨_, text_eq _, ofNotation_written lhs lhs rhs⟩, fun h h' => ⟨fun htext => ?_, ?_⟩⟩
  · obtain ⟨hlhs, hwritten⟩ := eq_of_text_eq h h' htext
    have hread := ofNotation_written (V := V) lhs lhs rhs
    rw [hwritten, ofNotation_written] at hread
    have hrhs := congrArg Rule.rhs hread.symm
    exact ⟨hlhs, hrhs⟩
  · rintro ⟨hlhs, hrhs⟩
    rw [text_eq, text_eq, written, written, hlhs, hrhs]

def scattered : Rule Value := ofNotation "#atom" "\u2003( #sum  NAME\n##a # <- é "

theorem text_ofNotation_scattered :
    scattered.rhs = [.terminal (.literal "("), .nonTerminal "sum", .terminal .name,
      .nonTerminal "#a", .nonTerminal "", .terminal (.literal "<-"), .terminal (.literal "é")] ∧
      (∃ part, scattered.text = s!"#{scattered.lhs} <- " ++ part ∧
        ofNotation "#atom" part = scattered) ∧
      isNonTerminalName scattered.lhs = true ∧
      (scattered.text = (ofNotation "atom" "( #sum NAME ##a # <- é" : Rule Value).text ↔
        scattered.lhs = "atom" ∧
          scattered.rhs = (ofNotation "atom" "( #sum NAME ##a # <- é" : Rule Value).rhs) := by
  obtain ⟨hpart, htext⟩ := text_ofNotation (r := scattered) rfl
    (rfl : (ofNotation "atom" "( #sum NAME ##a # <- é" : Rule Value) = _)
  exact ⟨by decide, hpart, by decide, htext (by decide) (by decide)⟩

example : (ofNotation "a <- b" "c" : Rule Value).text = (ofNotation "a" "b <- c" : Rule Value).text :=
  rfl

end Rule

end Packrat
