import Packrat.Proofs.Pattern.Sets

namespace Packrat.Pattern

open Reader (Stable)

theorem readFlags_append {f : Flags} {seen cs rest : List Char} {x : Flags × List Char}
    (h : readFlags f seen cs = .ok (x, rest)) :
    rest <:+ cs ∧ ∀ more, readFlags f seen (cs ++ more) = .ok (x, rest ++ more) := by
  induction cs generalizing f seen with
  | nil => cases h
  | cons c cs ih =>
    have further {f : Flags} {seen : List Char} (h : readFlags f seen cs = .ok (x, rest)) :
        rest <:+ c :: cs ∧ ∀ more, readFlags f seen (cs ++ more) = .ok (x, rest ++ more) :=
      ⟨(ih h).1.trans (List.suffix_cons c cs), (ih h).2⟩
    simp only [List.cons_append, readFlags] at h ⊢
    split at h
    · split at h
      · cases h
      · next hend hseen =>
        cases h
        simp only [hend, hseen, if_true, if_false]
        exact ⟨List.suffix_refl _, fun _ => rfl⟩
    · next hend =>
      split at h
      · cases h
      · next hnew =>
        split at h
        · next hc =>
          subst hc
          simp only [hend, hnew, if_true]
          exact further h
        · next hc =>
          obtain ⟨f', hf, h⟩ := bind_eq_ok.1 h
          simp only [hend, hnew, hc, hf, if_false]
          exact further h

theorem stable_readFlags (f : Flags) (seen : List Char) : Stable (readFlags f seen) :=
  .of_append fun _ _ _ => readFlags_append

theorem stable_readGroupName : Stable readGroupName := by
  refine .of_append fun cs x rest h => ?_
  unfold readGroupName at h ⊢
  dsimp only at h ⊢
  have hne : cs.dropWhile (· != '>') ≠ [] := by
    intro hnil
    rw [hnil] at h
    split at h
    · next heq => cases heq
    · cases h
  have hsuffix := List.dropWhile_suffix (· != '>') (l := cs)
  split at h
  · next first more _ tail hname hbehind =>
    split at h
    · next hok =>
      cases h
      rw [hbehind] at hsuffix
      refine ⟨(List.suffix_cons _ _).trans hsuffix, fun more => ?_⟩
      rw [takeWhile_append_of_ne_nil hne, dropWhile_append_of_ne_nil hne, hname, hbehind]
      simp only [List.cons_append, hok, if_true]
      rfl
    · cases h
  · cases h

theorem stable_readNamed : Stable readNamed :=
  stable_readGroupName.bind fun name => .pure (Op.openNamed name)

variable (f : Flags)

theorem stable_readModes : Stable (readModes f) := by
  have behind (x : Flags × List Char) := Stable.branch (· == ':') .flagUnclosed
    (fun _ => .pure (Op.openPlain x.1)) <| .uncons .flagUnclosed fun _ =>
      .ite (c := x.2.isEmpty = true) (fun _ => .fail .nothingToRepeat) fun _ => .pure (Op.modes x.1)
  refine ((stable_readFlags f []).bind behind).congr fun cs => ?_
  unfold readModes
  cases readFlags f [] cs with
  | error e => rfl
  | ok x =>
    rcases x with ⟨x, _ | ⟨c, rest⟩⟩
    · rfl
    · by_cases hc : c = ':'
      · subst hc
        rfl
      · simp [bind, Except.bind, hc]
        rfl

theorem readModes_P (cs : List Char) : readModes f ('P' :: cs) = .error (.flag 'P') := rfl

theorem stable_readOpening : Stable (readOpening f) := by
  have named := stable_readNamed
  have angle := Stable.branch (fun c => c == '=' || c == '!') .groupName
    (fun _ => .fail .lookAround) named
  have letter := Stable.branch (· == '<') (.flag 'P') (fun _ => named) (.fail (.flag 'P'))
  have question := Stable.branch (fun c => c == '=' || c == '!') .flagUnclosed
    (fun _ => .fail .lookAround) <| .branch (· == '<') .flagUnclosed (fun _ => angle) <|
      .branch (· == 'P') .flagUnclosed (fun _ => letter) (stable_readModes f)
  refine ((Stable.option (q := (· == '?')) (by decide) (fun _ => question)
    (.pure Op.openNumbered)).skip f).congr fun cs => ?_
  unfold readOpening
  generalize f.skip cs = cs
  split
  case h_6 heq hbang =>
    rename_i rest
    rcases rest with _ | ⟨c, cs⟩
    · rfl
    · have hsign : ¬(c = '=' ∨ c = '!') := by
        rintro (rfl | rfl)
        · exact heq cs rfl
        · exact hbang cs rfl
      simp [hsign]
  case h_7 hletter hangle =>
    rename_i rest heq hbang _ _
    rcases rest with _ | ⟨c, cs⟩
    · rfl
    · have hsign : ¬(c = '=' ∨ c = '!') := by
        rintro (rfl | rfl)
        · exact heq cs rfl
        · exact hbang cs rfl
      have hc : c ≠ '<' := by
        rintro rfl
        exact hangle cs rfl
      by_cases hP : c = 'P'
      · subst hP
        rcases cs with _ | ⟨d, cs⟩
        · rfl
        · have hd : d ≠ '<' := by
            rintro rfl
            exact hletter cs rfl
          simp [readModes_P, hd]
      · simp [hsign, hc, hP]
  case h_8 hquestion =>
    rcases cs with _ | ⟨c, cs⟩
    · rfl
    · have hc : c ≠ '?' := by
        rintro rfl
        exact hquestion cs rfl
      simp [hc]
      rfl
  all_goals rfl

theorem stable_readGreed : Stable fun cs => .ok (readGreed cs) := by
  refine (Stable.option (q := (· == '?')) (by decide) (fun _ => .pure false) (.pure true)).congr ?_
  rintro (_ | ⟨c, cs⟩)
  · rfl
  · by_cases hc : c = '?'
    · subst hc
      rfl
    · simp [readGreed, hc]

theorem stable_readRep (least : Nat) (most : Option Nat) :
    Stable fun cs => .ok (readRep least most cs) :=
  stable_readGreed.bind fun greedy => .pure (Op.rep least most greedy)

def signs : List Char := ['(', ')', '|', '[', '?', '*', '+', '\x7b', '\\', '.', '^', '$']

theorem readOp_of_not_mem {c : Char} (hc : c ∉ signs) (cs : List Char) :
    readOp f c cs = .ok (.set (f.literal c) 0, cs) := by
  simp only [signs, List.mem_cons, List.not_mem_nil, or_false, not_or] at hc
  simp [readOp, hc]
  rfl

theorem stable_readOp (c : Char) : Stable (readOp f c) := by
  have rep := stable_readRep
  by_cases hc : c ∈ signs
  · simp only [signs, List.mem_cons, List.not_mem_nil, or_false] at hc
    rcases hc with rfl | rfl | rfl | rfl | rfl | rfl | rfl | rfl | rfl | rfl | rfl | rfl
    · exact stable_readOpening f
    · exact .pure Op.close
    · exact .pure Op.branch
    · exact (stable_readSet f).bind fun x => .pure (Op.set x.set x.depth)
    · exact rep 0 (some 1)
    · exact rep 0 none
    · exact rep 1 none
    · exact (stable_readBounds f).bind fun bounds => (rep bounds.1 bounds.2).skip f
    · exact (stable_readEscape f).bind fun x => .pure (Op.ofPrimitive f x)
    · exact .pure (Op.set f.dot 0)
    · exact .pure (Op.look f.start)
    · exact .pure (Op.look f.stop)
  · exact (Stable.pure (Op.set (f.literal c) 0)).congr (readOp_of_not_mem f hc)

theorem stable_step (st : State) (c : Char) : Stable (step st c) :=
  (stable_readOp st.flags c).bind fun op => .given (op.apply st) fun st => .pure st

end Packrat.Pattern
