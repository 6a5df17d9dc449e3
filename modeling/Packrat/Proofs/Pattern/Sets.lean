import Packrat.Proofs.Pattern.Lexical

namespace Packrat.Pattern

open Reader (Stable)

variable {α : Type} (f : Flags)

theorem stable_present (e : Fault) (x : α) :
    Stable fun cs => if cs.isEmpty then .error e else .ok (x, cs) := by
  have never (_ : Char) : Stable fun _ => (.error e : Except Fault (α × List Char)) := .fail e
  refine (Stable.branch (fun _ => false) e never (.pure x)).congr ?_
  rintro (_ | ⟨c, cs⟩) <;> rfl

theorem readHyphens_fuel {n m : Nat} {cs : List Char} (hn : cs.length ≤ n) (hm : cs.length ≤ m) :
    readHyphens f n cs = readHyphens f m cs := by
  induction n generalizing m cs with
  | zero =>
    cases List.length_eq_zero_iff.1 (Nat.le_zero.1 hn)
    cases m <;> rfl
  | succ n ih =>
    cases cs with
    | nil => cases m <;> rfl
    | cons c rest =>
      cases m with
      | zero => cases hm
      | succ m =>
        have hlen := (f.skip_suffix rest).length_le
        rw [List.length_cons] at hn hm
        by_cases hc : c = '-'
        · subst hc
          rw [readHyphens, readHyphens, @ih m (f.skip rest) (by omega) (by omega)]
        · simp [readHyphens, hc]

theorem stable_readHyphens : Stable fun cs => .ok (readHyphens f cs.length cs) := by
  have fuelled (n : Nat) : Stable fun cs => .ok (readHyphens f n cs) := by
    induction n with
    | zero => exact .pure []
    | succ n ih =>
      have more (_ : Char) := (ih.skip f).bind fun xs => .pure (SetItem.mk (.single '-') 0 :: xs)
      refine (Stable.option (q := (· == '-')) (by decide) more (.pure [])).congr ?_
      rintro (_ | ⟨c, cs⟩)
      · rfl
      · by_cases hc : c = '-'
        · subst hc
          rfl
        · simp [readHyphens, hc]
  refine .of_fuel fuelled 0 fun cs n m x hn hm h => ?_
  rw [← h, readHyphens_fuel f hn (Nat.le_trans hn hm)]

theorem stable_readNegation : Stable fun cs => .ok (readNegation f cs) := by
  have negated (_ : Char) := (Stable.pure true).skip f
  refine (Stable.option (q := (· == '^')) (by decide) negated (.pure false)).congr ?_
  rintro (_ | ⟨c, cs⟩)
  · rfl
  · by_cases hc : c = '^'
    · subst hc
      rfl
    · simp [readNegation, hc]

theorem stable_readBracket (hyphens : List SetItem) :
    Stable fun cs => .ok (readBracket f hyphens cs) := by
  cases hyphens with
  | cons x xs => exact (Stable.pure (x :: xs)).congr fun cs => by cases cs <;> rfl
  | nil =>
    have bracket (_ : Char) := (Stable.pure [SetItem.mk (.single ']') 0]).skip f
    refine (Stable.option (q := (· == ']')) (by decide) bracket (.pure [])).congr ?_
    rintro (_ | ⟨c, cs⟩)
    · rfl
    · by_cases hc : c = ']'
      · subst hc
        rfl
      · simp [readBracket, hc]

theorem stable_openSet (st : SetState) : Stable (openSet f st) :=
  ((stable_readNegation f).bind fun negated => (stable_readHyphens f).bind fun hyphens =>
    (stable_readBracket f hyphens).bind fun members => stable_present .setUnclosed
      (SetState.mk members (.bracket st.members negated :: st.frames))).skip f

theorem stable_readMember_cons (c : Char) : Stable fun cs => readMember f (c :: cs) := by
  by_cases hc : c = '\\'
  · subst hc
    exact stable_readEscape f
  · exact (Stable.pure (Primitive.char c)).congr fun cs => by simp [readMember]; rfl

theorem stable_readMember : Stable (readMember f) := by
  refine (Stable.uncons .setUnclosed (stable_readMember_cons f)).congr ?_
  rintro (_ | ⟨c, cs⟩) <;> rfl

theorem stable_readRangeEnd (first : Primitive) : Stable (readRangeEnd f first) := by
  have behind := (stable_readMember f).bind fun last =>
    .given first.toRangeEnd fun a => .given last.toRangeEnd fun b =>
      .ite (c := b < a) (fun _ => .fail .setRange) fun _ => .pure (SetItem.mk (.range a b) 0)
  refine (behind.skip f).congr fun cs => ?_
  unfold readRangeEnd
  cases hskip : f.skip cs with
  | nil => rfl
  | cons c rest => rfl

theorem behindSpace_append {cs : List Char} (h : behindSpace cs ≠ []) (more : List Char) :
    behindSpace (cs ++ more) = behindSpace cs ++ more := by
  unfold behindSpace at h ⊢
  split at h
  · next rest hrest =>
    rw [dropWhile_append_of_ne_nil (by simp [hrest]), hrest]
    exact dropWhile_append_of_ne_nil h more
  · next rest hne =>
    rw [dropWhile_append_of_ne_nil h]
    cases hrest : cs.dropWhile Text.isBlank with
    | nil => exact absurd hrest h
    | cons c rest =>
      have hc : c ≠ '#' := fun e => hne rest (e ▸ hrest)
      simp [hc]

theorem skipSpace_eq_nil_of_blank {cs : List Char} (h : cs.dropWhile Text.isBlank = []) (b : Bool) :
    skipSpace b cs = [] := by
  induction cs generalizing b with
  | nil => cases b <;> rfl
  | cons c cs ih =>
    rw [List.dropWhile_cons] at h
    split at h
    · next hc =>
      cases b with
      | true => exact ih h _
      | false => rw [skipSpace, if_pos hc, ih h]
    · cases h

theorem skipSpace_dropWhile (cs : List Char) :
    skipSpace false (cs.dropWhile Text.isBlank) = skipSpace false cs := by
  induction cs with
  | nil => rfl
  | cons c cs ih =>
    rw [List.dropWhile_cons]
    split
    · next hc => rw [ih, skipSpace, if_pos hc]
    · rfl

theorem behindSpace_cons {c : Char} (hblank : Text.isBlank c = false) (hc : c ≠ '#')
    (cs : List Char) : behindSpace (c :: cs) = c :: cs := by
  unfold behindSpace
  rw [List.dropWhile_cons, hblank]
  simp [hc]

theorem behindSpace_ne_nil {cs : List Char} (h : skipSpace false cs ≠ []) : behindSpace cs ≠ [] := by
  intro hnil
  refine h ?_
  rw [← skipSpace_dropWhile]
  unfold behindSpace at hnil
  split at hnil
  · next rest hrest =>
    rw [hrest]
    exact skipSpace_eq_nil_of_blank hnil true
  · rw [hnil]
    rfl

theorem Flags.peek?_append {rest : List Char}
    (h : f.skip rest ≠ [] ∨ f.peek? rest = some ']' ∨ f.peek? rest = some '-') (more : List Char) :
    f.peek? (rest ++ more) = f.peek? rest := by
  unfold Flags.peek? Flags.skip at *
  split
  · next hs =>
    simp only [hs, if_true] at h
    have hne : behindSpace rest ≠ [] := by
      rcases h with h | h
      · exact behindSpace_ne_nil h
      · intro hnil
        rw [hnil, List.head?_nil, Option.none_or] at h
        rcases h with h | h <;> obtain ⟨cs, rfl⟩ := List.head?_eq_some_iff.1 h
        · rw [behindSpace_cons (by decide) (by decide)] at hnil
          cases hnil
        · rw [behindSpace_cons (by decide) (by decide)] at hnil
          cases hnil
    rw [behindSpace_append hne]
    cases hb : behindSpace rest with
    | nil => exact absurd hb hne
    | cons c cs => rfl
  · next hs =>
    simp only [hs, Bool.false_eq_true, if_false] at h
    cases rest with
    | nil => simp at h
    | cons c cs => rfl

theorem readRangeFrom_of_ne {c : Char} (hc : c ≠ '-') (first : Primitive) (cs : List Char) :
    readRangeFrom f first (c :: cs) = first.toSetItem >>= fun x => .ok (x, c :: cs) := by
  simp [readRangeFrom, hc]
  rfl

theorem peek?_append_of_readRangeFrom {first : Primitive} {rest : List Char}
    {x : SetItem × List Char} (h : readRangeFrom f first ('-' :: rest) = .ok x) (more : List Char) :
    f.peek? (rest ++ more) = f.peek? rest := by
  refine f.peek?_append ?_ more
  by_cases hskip : f.skip rest = []
  · refine .inr ?_
    by_contra hpeek
    simp [readRangeFrom, hpeek, readRangeEnd, hskip] at h
  · exact .inl hskip

theorem stable_readRangeFrom (first : Primitive) : Stable (readRangeFrom f first) := by
  have member : Stable fun cs => first.toSetItem >>= fun x => .ok (x, cs) :=
    .given first.toSetItem fun x => .pure x
  have range := stable_readRangeEnd f first
  refine .of_local ?_
  rintro (_ | ⟨c, cs⟩) x rest h
  · cases h
  · by_cases hc : c = '-'
    · subst hc
      have hpeek := peek?_append_of_readRangeFrom f h
      by_cases hp : f.peek? cs = some ']' ∨ f.peek? cs = some '-'
      · refine ⟨_, _, member, List.suffix_refl _, fun more => ?_⟩
        simp [readRangeFrom, hpeek, hp]
        rfl
      · refine ⟨_, cs, range, List.suffix_cons _ _, fun more => ?_⟩
        simp [readRangeFrom, hpeek, hp]
    · refine ⟨_, _, member, List.suffix_refl _, fun more => ?_⟩
      exact readRangeFrom_of_ne f hc first (cs ++ more)

theorem stable_readRange_cons (c : Char) : Stable fun cs => readRange f (c :: cs) :=
  (stable_readMember_cons f c).bind fun first => (stable_readRangeFrom f first).skip f

theorem named?_eq_none {name : String} (h : ']' ∈ name.toList) : CharSet.named? name = none := by
  unfold CharSet.named?
  split <;> first | rfl | exact absurd h (by decide)

theorem readSetName?_append {f : Flags} {negated : Bool} {cs rest : List Char} {x : SetItem}
    (h : readSetName? f negated cs = some (x, rest)) :
    rest <:+ cs ∧ ∀ more, readSetName? f negated (cs ++ more) = some (x, rest ++ more) := by
  unfold readSetName? at h ⊢
  split at h
  · next behind hbehind =>
    obtain ⟨s, hs, h⟩ := Option.map_eq_some_iff.1 h
    cases h
    have hne : cs.dropWhile (· != ':') ≠ [] := by simp [hbehind]
    constructor
    · have := List.dropWhile_suffix (· != ':') (l := cs)
      rw [hbehind] at this
      exact (((List.suffix_cons _ _).trans (List.suffix_cons _ _))).trans this
    · intro more
      rw [dropWhile_append_of_ne_nil hne, takeWhile_append_of_ne_nil hne, hbehind]
      simp [hs]
  · cases h

theorem readSetName?_append_eq_none {f : Flags} {negated : Bool} {cs : List Char}
    (h : readSetName? f negated cs = none) (hclose : ']' ∈ cs) (more : List Char) :
    readSetName? f negated (cs ++ more) = none := by
  -- No name has a bracket in it, so a set that closes does not become a named one.
  have unnamed {name : List Char} (hname : ']' ∈ name) (rest : List Char) :
      (CharSet.named? (String.ofList name)).map
        (fun s => ((⟨s.close f.foldCase negated, 0⟩ : SetItem), rest)) = none := by
    rw [named?_eq_none (by simpa using hname), Option.map_none]
  have split := List.takeWhile_append_dropWhile (p := (· != ':')) (l := cs)
  unfold readSetName? at h ⊢
  by_cases hne : cs.dropWhile (· != ':') = []
  · -- No colon here, so the bracket is in the name, wherever that ends.
    have hall : cs.takeWhile (· != ':') = cs := by rwa [hne, List.append_nil] at split
    rw [List.takeWhile_append, if_pos (by rw [hall]), List.dropWhile_append, if_pos (by simp [hne])]
    split
    · exact unnamed (List.mem_append_left _ hclose) _
    · rfl
  · rw [dropWhile_append_of_ne_nil hne, takeWhile_append_of_ne_nil hne]
    rcases hbehind : cs.dropWhile (· != ':') with _ | ⟨c, _ | ⟨d, rest⟩⟩
    · exact absurd hbehind hne
    · -- The colon is the last character, so the bracket is before it.
      rw [← split, hbehind, List.mem_append, List.mem_singleton] at hclose
      split
      · next heq =>
        cases (List.cons_eq_cons.1 heq).1
        exact unnamed (hclose.resolve_right (by decide)) _
      · rfl
    · rw [hbehind] at h
      split
      · next heq =>
        cases heq
        simpa using h
      · rfl

theorem readNamedSet?_append {f : Flags} {cs rest : List Char} {x : SetItem}
    (h : readNamedSet? f cs = some (x, rest)) :
    rest <:+ cs ∧ ∀ more, readNamedSet? f (cs ++ more) = some (x, rest ++ more) := by
  unfold readNamedSet? at h
  split at h
  · have ⟨hrest, happend⟩ := readSetName?_append h
    exact ⟨(hrest.trans (List.suffix_cons _ _)).trans (List.suffix_cons _ _), happend⟩
  · next rest' hne =>
    have ⟨hrest, happend⟩ := readSetName?_append h
    refine ⟨hrest.trans (List.suffix_cons _ _), fun more => ?_⟩
    rw [← happend more]
    cases rest' with
    | nil => cases h
    | cons c cs =>
      have hc : c ≠ '^' := fun e => hne cs (e ▸ rfl)
      simp [readNamedSet?, hc]
  · cases h

theorem readNamedSet?_append_eq_none {f : Flags} {cs : List Char}
    (h : readNamedSet? f cs = none) (hclose : ']' ∈ cs) (more : List Char) :
    readNamedSet? f (cs ++ more) = none := by
  rcases cs with _ | ⟨c, cs⟩
  · cases hclose
  · by_cases hc : c = ':'
    · subst hc
      have hclose := (List.mem_cons.1 hclose).resolve_left (by decide)
      rcases cs with _ | ⟨d, cs⟩
      · cases hclose
      · by_cases hd : d = '^'
        · subst hd
          exact readSetName?_append_eq_none h ((List.mem_cons.1 hclose).resolve_left (by decide)) more
        · simp [readNamedSet?, hd] at h ⊢
          exact readSetName?_append_eq_none h hclose more
    · simp [readNamedSet?, hc]

theorem readRange_singleton {c : Char} (hc : c ≠ '\\') : readRange f [c] = .error .setUnclosed := by
  have hskip : f.skip [] = [] := List.suffix_nil.1 (f.skip_suffix [])
  simp [readRange, readMember, readRangeFrom, hskip, pure, Except.pure, bind, Except.bind]
  rfl

def setOps : List (Char × SetOp) := [('&', .inter), ('-', .diff), ('~', .symm)]

theorem readSetWith_sign {c : Char} {op : SetOp} (hop : (c, op) ∈ setOps)
    (next : SetState → Reader SetItem) (st : SetState) (cs : List Char) :
    readSetWith f next st (c :: cs) = match cs with
      | [] => .error .setUnclosed
      | d :: rest =>
        if d == c then next (st.operator f op) rest
        else readRange f (c :: d :: rest) >>= fun x => next (st.push x.1) x.2 := by
  simp only [setOps, List.mem_cons, List.not_mem_nil, or_false, Prod.mk.injEq] at hop
  have single {c : Char} (hc : c ≠ '\\') :
      (readRange f [c] >>= fun x => next (st.push x.1) x.2) = .error .setUnclosed := by
    rw [readRange_singleton f hc]
    rfl
  rcases hop with ⟨rfl, rfl⟩ | ⟨rfl, rfl⟩ | ⟨rfl, rfl⟩
  all_goals
    rcases cs with _ | ⟨d, cs⟩
    · exact single (by decide)
    · dsimp only
      split
      · next hd =>
        cases eq_of_beq hd
        rfl
      · next hd => simp [readSetWith, ne_of_beq_false (Bool.eq_false_iff.2 hd)]

theorem readSetWith_part {c : Char} (hopen : c ≠ '[') (hclose : c ≠ ']')
    (hop : ∀ op, (c, op) ∉ setOps) (next : SetState → Reader SetItem) (st : SetState)
    (cs : List Char) :
    readSetWith f next st (c :: cs) =
      readRange f (c :: cs) >>= fun x => next (st.push x.1) x.2 := by
  have hinter : c ≠ '&' := fun e => hop .inter (by simp [setOps, e])
  have hdiff : c ≠ '-' := fun e => hop .diff (by simp [setOps, e])
  have hsymm : c ≠ '~' := fun e => hop .symm (by simp [setOps, e])
  unfold readSetWith
  split <;> simp_all

section

variable {next : SetState → Reader SetItem} {st : SetState} {cs : List Char}

theorem readSetWith_bracket :
    readSetWith f next st ('[' :: cs) = match readNamedSet? f cs with
      | some (x, rest) => next (st.push x) rest
      | none => openSet f st cs >>= fun x => next x.1 x.2 := rfl

theorem readSetWith_named {x : SetItem × List Char} (h : readNamedSet? f cs = some x) :
    readSetWith f next st ('[' :: cs) = next (st.push x.1) x.2 := by
  rw [readSetWith_bracket, h]

theorem readSetWith_open (h : readNamedSet? f cs = none) :
    readSetWith f next st ('[' :: cs) = openSet f st cs >>= fun x => next x.1 x.2 := by
  rw [readSetWith_bracket, h]

theorem readSetWith_end :
    readSetWith f next st (']' :: cs) = match st.close f with
      | .inl x => .ok (x, cs)
      | .inr st => next st cs := rfl

theorem readSetWith_last {x : SetItem} (h : st.close f = .inl x) :
    readSetWith f next st (']' :: cs) = .ok (x, cs) := by
  rw [readSetWith_end, h]

theorem readSetWith_close {st' : SetState} (h : st.close f = .inr st') :
    readSetWith f next st (']' :: cs) = next st' cs := by
  rw [readSetWith_end, h]

end

theorem readSetWith_cases (st : SetState) (cs : List Char) :
    (∃ e, ∀ next, readSetWith f next st cs = .error e) ∨
      (∃ st' rest, rest <:+ cs ∧ ∀ next, readSetWith f next st cs = next st' rest) ∨
        ∃ x rest, ']' :: rest <:+ cs ∧ ∀ next, readSetWith f next st cs = .ok (x, rest) := by
  have part {c : Char} {cs : List Char}
      (h : ∀ next, readSetWith f next st (c :: cs) =
        readRange f (c :: cs) >>= fun x => next (st.push x.1) x.2) :
      (∃ e, ∀ next, readSetWith f next st (c :: cs) = .error e) ∨
        ∃ st' rest, rest <:+ c :: cs ∧ ∀ next, readSetWith f next st (c :: cs) = next st' rest := by
    cases hr : readRange f (c :: cs) with
    | error e => exact .inl ⟨e, fun next => by rw [h, hr]; rfl⟩
    | ok x =>
      have hsuffix := (stable_readRange_cons f c).suffix hr
      exact .inr ⟨_, _, hsuffix.trans (List.suffix_cons _ _), fun next => by rw [h, hr]; rfl⟩
  rcases cs with _ | ⟨c, cs⟩
  · exact .inl ⟨.setUnclosed, fun _ => rfl⟩
  by_cases hopen : c = '['
  · subst hopen
    cases hnamed : readNamedSet? f cs with
    | some x =>
      have hsuffix := (readNamedSet?_append hnamed).1
      exact .inr (.inl ⟨st.push x.1, x.2, hsuffix.trans (List.suffix_cons _ _),
        fun next => readSetWith_named f hnamed⟩)
    | none =>
      cases hr : openSet f st cs with
      | error e => exact .inl ⟨e, fun next => by rw [readSetWith_open f hnamed, hr]; rfl⟩
      | ok x =>
        have hsuffix := (stable_openSet f st).suffix hr
        refine .inr (.inl ⟨x.1, x.2, hsuffix.trans (List.suffix_cons _ _), fun next => ?_⟩)
        rw [readSetWith_open f hnamed, hr]
        rfl
  by_cases hclose : c = ']'
  · subst hclose
    cases hst : st.close f with
    | inl x => exact .inr (.inr ⟨x, cs, List.suffix_refl _, fun next => readSetWith_last f hst⟩)
    | inr st' =>
      exact .inr (.inl ⟨st', cs, List.suffix_cons _ _, fun next => readSetWith_close f hst⟩)
  by_cases hop : ∃ op, (c, op) ∈ setOps
  · obtain ⟨op, hop⟩ := hop
    have h := readSetWith_sign f hop
    rcases cs with _ | ⟨d, cs⟩
    · exact .inl ⟨_, fun next => h next st []⟩
    · by_cases hd : (d == c) = true
      · refine .inr (.inl ⟨st.operator f op, cs, ?_, fun next => ?_⟩)
        · exact (List.suffix_cons _ _).trans (List.suffix_cons _ _)
        · exact (h next st (d :: cs)).trans (if_pos hd)
      · have h := part fun next => (h next st (d :: cs)).trans (if_neg hd)
        exact h.imp_right .inl
  · have h := part fun next =>
      readSetWith_part f hopen hclose (fun op h => hop ⟨op, h⟩) next st cs
    exact h.imp_right .inl

section

variable {f} {next : SetState → Reader SetItem} (hnext : ∀ st, Stable (next st))
  (hclose : ∀ st cs x, next st cs = .ok x → ']' ∈ cs)

include hnext hclose

theorem stable_readSetWith_open (st : SetState) :
    Stable fun cs => readSetWith f next st ('[' :: cs) := by
  refine .of_local fun cs y rest h => ?_
  cases hnamed : readNamedSet? f cs with
  | some x =>
    have ⟨hsuffix, happend⟩ := readNamedSet?_append hnamed
    refine ⟨next (st.push x.1), x.2, hnext _, hsuffix, fun more => ?_⟩
    rw [readSetWith_named f (happend more)]
  | none =>
    rw [readSetWith_open f hnamed] at h
    obtain ⟨x, hx, hy⟩ := bind_eq_ok.1 h
    have hmem := ((stable_openSet f st).suffix hx).mem (hclose _ _ _ hy)
    refine ⟨_, cs, (stable_openSet f st).bind hnext, List.suffix_refl _, fun more => ?_⟩
    rw [readSetWith_open f (readNamedSet?_append_eq_none hnamed hmem more)]

omit hclose in
theorem stable_readSetWith_close (st : SetState) :
    Stable fun cs => readSetWith f next st (']' :: cs) := by
  cases hst : st.close f with
  | inl x => exact (Stable.pure x).congr fun cs => readSetWith_last f hst
  | inr st' => exact (hnext st').congr fun cs => readSetWith_close f hst

theorem stable_readSetWith (st : SetState) : Stable (readSetWith f next st) := by
  -- A part that is no sign of its own.
  have part (c : Char) := (stable_readRange_cons f c).bind fun x => hnext (st.push x)
  have double (c : Char) (op : SetOp) := Stable.branch (· == c) .setUnclosed
    (fun _ => hnext (st.operator f op)) (part c)
  have closed := stable_readSetWith_close (f := f) hnext st
  have bracket := stable_readSetWith_open (f := f) hnext hclose st
  have sign (c : Char) := Stable.ite (c := c = '[') (fun _ => bracket)
    fun _ => .ite (c := c = ']') (fun _ => closed)
    fun _ => .ite (c := c = '&') (fun _ => double c .inter)
    fun _ => .ite (c := c = '-') (fun _ => double c .diff)
    fun _ => .ite (c := c = '~') (fun _ => double c .symm) fun _ => part c
  refine (Stable.uncons .setUnclosed sign).congr ?_
  rintro (_ | ⟨c, cs⟩)
  · rfl
  dsimp only
  split
  · next hc => subst hc; rfl
  split
  · next hc => subst hc; rfl
  split
  · next hc => subst hc; exact readSetWith_sign f (by simp [setOps]) next st cs
  split
  · next hc => subst hc; exact readSetWith_sign f (by simp [setOps]) next st cs
  split
  · next hc => subst hc; exact readSetWith_sign f (by simp [setOps]) next st cs
  · next hopen hclose hinter hdiff hsymm =>
    exact readSetWith_part f hopen hclose (by simp [setOps, hinter, hdiff, hsymm]) next st cs

end

theorem mem_of_readSetWith {f : Flags} {next : SetState → Reader SetItem}
    (hnext : ∀ st cs x, next st cs = .ok x → ']' ∈ cs) {st : SetState} {cs : List Char}
    {x : SetItem × List Char} (h : readSetWith f next st cs = .ok x) : ']' ∈ cs := by
  rcases readSetWith_cases f st cs with ⟨e, he⟩ | ⟨st', rest, hsuffix, heq⟩ | ⟨y, rest, hsuffix, -⟩
  · rw [he] at h
    cases h
  · exact hsuffix.mem (hnext _ _ _ (heq next ▸ h))
  · exact hsuffix.mem List.mem_cons_self

theorem readSetWith_mono {f : Flags} {next next' : SetState → Reader SetItem}
    (hnext : ∀ st cs x, next st cs = .ok x → next' st cs = .ok x) {st : SetState} {cs : List Char}
    {x : SetItem × List Char} (h : readSetWith f next st cs = .ok x) :
    readSetWith f next' st cs = .ok x := by
  rcases readSetWith_cases f st cs with ⟨e, he⟩ | ⟨st', rest, -, heq⟩ | ⟨y, rest, -, heq⟩
  · rw [he] at h
    cases h
  · rw [heq] at h ⊢
    exact hnext _ _ _ h
  · rwa [heq] at h ⊢

theorem mem_of_readSetFrom {fuel : Nat} {st : SetState} {cs : List Char} {x : SetItem × List Char}
    (h : readSetFrom f fuel st cs = .ok x) : ']' ∈ cs := by
  induction fuel generalizing st cs x with
  | zero => cases h
  | succ fuel ih => exact (f.skip_suffix cs).mem (mem_of_readSetWith (fun _ _ _ => ih) h)

theorem readSetFrom_mono {n m : Nat} (hle : n ≤ m) {st : SetState} {cs : List Char}
    {x : SetItem × List Char} (h : readSetFrom f n st cs = .ok x) :
    readSetFrom f m st cs = .ok x := by
  induction n generalizing m st cs x with
  | zero => cases h
  | succ n ih =>
    cases m with
    | zero => cases hle
    | succ m => exact readSetWith_mono (fun _ _ _ => ih (Nat.le_of_succ_le_succ hle)) h

theorem stable_readSetFrom (fuel : Nat) (st : SetState) : Stable (readSetFrom f fuel st) := by
  induction fuel generalizing st with
  | zero => exact .fail .setUnclosed
  | succ fuel ih => exact (stable_readSetWith ih (fun _ _ _ => mem_of_readSetFrom f) st).skip f

theorem stable_readSet : Stable (readSet f) :=
  (stable_openSet f ⟨[], []⟩).bind fun st =>
    .of_fuel (stable_readSetFrom f · st) 1 fun _ _ _ _ _ hle h => readSetFrom_mono f hle h

end Packrat.Pattern
