import Packrat.Proofs.Lexer.Dispatch
import Packrat.Proofs.Lexer.Recognise

namespace Packrat

open Text (Cursor)

section EraseReps

variable {α : Type} {r : α → α → Bool} {a : α} {as acc : List α}

theorem eraseRepsBy_loop_eq :
    List.eraseRepsBy.loop r a as acc = acc.reverse ++ List.eraseRepsBy.loop r a as [] := by
  induction as generalizing a acc with
  | nil => rw [List.eraseRepsBy.loop, List.eraseRepsBy.loop, List.reverse_cons]; rfl
  | cons b as ih =>
    rw [List.eraseRepsBy.loop, List.eraseRepsBy.loop]
    split
    · exact ih
    · rw [ih, @ih b [a], List.reverse_cons, List.append_assoc]
      rfl

variable [BEq α]

theorem eraseReps_cons_cons (a b : α) (as : List α) :
    (a :: b :: as).eraseReps =
      if a == b then (a :: as).eraseReps else a :: (b :: as).eraseReps := by
  simp only [List.eraseReps, List.eraseRepsBy, List.eraseRepsBy.loop]
  split
  · next hab => rw [if_pos hab]
  · next hab => rw [if_neg (by simp [hab]), eraseRepsBy_loop_eq]; rfl

theorem eraseReps_sublist (as : List α) : List.Sublist as.eraseReps as := by
  cases as with
  | nil => exact List.Sublist.refl _
  | cons a as =>
    induction as generalizing a with
    | nil => exact List.Sublist.refl _
    | cons b as ih =>
      rw [eraseReps_cons_cons]
      split
      · exact (ih a).trans ((List.sublist_cons_self b as).cons_cons a)
      · exact (ih b).cons_cons a

variable [LawfulBEq α]

theorem mem_eraseReps {x : α} : x ∈ as.eraseReps ↔ x ∈ as := by
  refine ⟨(eraseReps_sublist as).mem, fun hx => ?_⟩
  cases as with
  | nil => cases hx
  | cons a as =>
    induction as generalizing a with
    | nil => exact hx
    | cons b as ih =>
      rw [eraseReps_cons_cons]
      rcases List.mem_cons.1 hx with rfl | hx
      · split
        · exact ih x List.mem_cons_self
        · exact List.mem_cons_self
      · split
        · next hab => exact ih a (eq_of_beq hab ▸ hx)
        · exact List.mem_cons_of_mem a (ih b hx)

theorem nodup_eraseReps {le : α → α → Prop} (hantisymm : ∀ a b, le a b → le b a → a = b)
    (h : as.Pairwise le) : as.eraseReps.Nodup := by
  cases as with
  | nil => exact List.nodup_nil
  | cons a as =>
    induction as generalizing a with
    | nil => exact List.nodup_singleton a
    | cons b as ih =>
      rw [eraseReps_cons_cons]
      split
      · exact ih a (h.sublist ((List.sublist_cons_self b as).cons_cons a))
      · next hab =>
        obtain ⟨hfirst, hrest⟩ := List.pairwise_cons.1 h
        refine List.nodup_cons.2 ⟨fun ha => hab (beq_iff_eq.2 ?_), ih b hrest⟩
        -- Behind `b` no member is before it, so one that is `a` would be `b` as well.
        rcases List.mem_cons.1 (mem_eraseReps.1 ha) with heq | hmem
        · exact heq
        · exact hantisymm a b (hfirst b List.mem_cons_self) (List.rel_of_pairwise_cons hrest hmem)

end EraseReps

namespace Direct

variable {texts : List (List Char)} {text cs : List Char}

theorem longest?_eq_none_iff : longest? texts cs = none ↔ ∀ text ∈ texts, ¬text <+: cs := by
  rw [longest?, List.argmax_eq_none, List.filter_eq_nil_iff]
  simp only [List.isPrefixOf_iff_prefix]

theorem longest?_eq_some_iff : longest? texts cs = some text ↔
    text ∈ texts ∧ text <+: cs ∧ ∀ other ∈ texts, other <+: cs → other.length ≤ text.length := by
  have hfront (other : List Char) : other ∈ texts.filter (·.isPrefixOf cs) ↔
      other ∈ texts ∧ other <+: cs := by
    rw [List.mem_filter, List.isPrefixOf_iff_prefix]
  have hlongest {text : List Char} (h : longest? texts cs = some text) :
      text ∈ texts ∧ text <+: cs ∧ ∀ other ∈ texts, other <+: cs → other.length ≤ text.length := by
    obtain ⟨hmem, htext⟩ := (hfront text).1 (List.argmax_mem h)
    exact ⟨hmem, htext, fun other hother hcs =>
      List.le_of_mem_argmax ((hfront other).2 ⟨hother, hcs⟩) h⟩
  refine ⟨hlongest, fun ⟨hmem, htext, hle⟩ => ?_⟩
  cases h : longest? texts cs with
  | none => exact absurd htext (longest?_eq_none_iff.1 h text hmem)
  | some found =>
    -- Two texts of one length at the same front are the same.
    obtain ⟨hfound, hcs, hge⟩ := hlongest h
    have hlen := Nat.le_antisymm (hle found hfound hcs) (hge text hmem htext)
    exact congrArg some ((List.prefix_of_prefix_length_le hcs htext hlen.le).eq_of_length hlen)

end Direct

namespace Spec

theorem literalLe_iff {a b : String} :
    literalLe a b = true ↔ b.utf8ByteSize < a.utf8ByteSize ∨
      a.utf8ByteSize = b.utf8ByteSize ∧ a ≤ b := by
  simp [literalLe]

theorem literalLe_trans (a b c : String) (hab : literalLe a b = true) (hbc : literalLe b c = true) :
    literalLe a c = true := by
  rw [literalLe_iff] at *
  rcases hab with hab | ⟨hab, habs⟩
  · exact .inl (by omega)
  · rcases hbc with hbc | ⟨hbc, hbcs⟩
    · exact .inl (by omega)
    · exact .inr ⟨by omega, String.le_trans habs hbcs⟩

theorem literalLe_total (a b : String) : (literalLe a b || literalLe b a) = true := by
  rw [Bool.or_eq_true, literalLe_iff, literalLe_iff]
  rcases Nat.lt_trichotomy a.utf8ByteSize b.utf8ByteSize with hlt | heq | hgt
  · exact .inr (.inl hlt)
  · exact (String.le_total a b).imp (fun h => .inr ⟨heq, h⟩) fun h => .inr ⟨heq.symm, h⟩
  · exact .inl (.inl hgt)

theorem literalLe_antisymm {a b : String} (hab : literalLe a b = true) (hba : literalLe b a = true) :
    a = b := by
  rw [literalLe_iff] at hab hba
  rcases hab with hab | ⟨hsize, hab⟩
  · rcases hba with hba | ⟨hba, -⟩
    · omega
    · omega
  · rcases hba with hba | ⟨-, hba⟩
    · omega
    · exact String.le_antisymm hab hba

theorem pairwise_mergeSort (literals : List String) :
    (literals.mergeSort literalLe).Pairwise fun a b => literalLe a b = true :=
  List.pairwise_mergeSort literalLe_trans literalLe_total literals

theorem pairwise_literalOrder (literals : List String) :
    (literalOrder literals).Pairwise fun a b => b.utf8ByteSize ≤ a.utf8ByteSize := by
  refine ((pairwise_mergeSort literals).imp fun hab => ?_).sublist (eraseReps_sublist _)
  rw [literalLe_iff] at hab
  omega

theorem action_literal? {literals : List String} {s : Spec} (h : literal? literals = some s) :
    s.action = .literal := by
  unfold literal? at h
  split at h
  · cases h
  · cases h
    rfl

theorem mem_literalOrder {literals : List String} {l : String} :
    l ∈ literalOrder literals ↔ l ∈ literals := by
  rw [literalOrder, mem_eraseReps, List.mem_mergeSort]

theorem length_le_of_utf8ByteSize_le {a b : String} {cs : List Char} (ha : a.toList <+: cs)
    (hb : b.toList <+: cs) (h : b.utf8ByteSize ≤ a.utf8ByteSize) :
    b.toList.length ≤ a.toList.length := by
  by_contra hlt
  obtain ⟨more, hmore⟩ := List.prefix_of_prefix_length_le ha hb (by omega)
  have hb : b = a ++ String.ofList more := by
    rw [← String.toList_inj, ← hmore, String.toList_append, String.toList_ofList]
  rw [hb, String.utf8ByteSize_append] at h
  have hempty : String.ofList more = "" := String.utf8ByteSize_eq_zero_iff.1 (by omega)
  rw [hb, hempty, String.append_empty] at hlt
  exact hlt (Nat.le_refl _)

theorem find?_literalOrder (literals : List String) (cs : List Char) :
    ((literalOrder literals).map String.toList).find? (·.isPrefixOf cs) =
      Direct.longest? (literals.map String.toList) cs := by
  rw [List.find?_map]
  cases hfind : (literalOrder literals).find? ((·.isPrefixOf cs) ∘ String.toList) with
  | none =>
    refine (Direct.longest?_eq_none_iff.2 (List.forall_mem_map.2 fun l hl hfront => ?_)).symm
    exact List.find?_eq_none.1 hfind l (mem_literalOrder.2 hl) (List.isPrefixOf_iff_prefix.2 hfront)
  | some l =>
    obtain ⟨hl, before, behind, horder, hbefore⟩ := List.find?_eq_some_iff_append.1 hfind
    have hlfront : l.toList <+: cs := List.isPrefixOf_iff_prefix.1 hl
    have hlmem : l ∈ literals := by
      rw [← mem_literalOrder, horder]
      simp
    refine (Direct.longest?_eq_some_iff.2 ⟨List.mem_map_of_mem hlmem, hlfront,
      List.forall_mem_map.2 fun m hm hfront => ?_⟩).symm
    -- One that is at the front is not before the first such, so it is not larger.
    refine length_le_of_utf8ByteSize_le hlfront hfront ?_
    have hpairwise := pairwise_literalOrder literals
    have hmorder := mem_literalOrder.2 hm
    rw [horder] at hpairwise hmorder
    rcases List.mem_append.1 hmorder with hmbefore | hmbehind
    · have := hbefore m hmbefore
      simp [List.isPrefixOf_iff_prefix.2 hfront] at this
    · rcases List.mem_cons.1 hmbehind with rfl | hmbehind
      · exact Nat.le_refl _
      · exact List.rel_of_pairwise_cons (List.pairwise_append.1 hpairwise).2.1 hmbehind

theorem literalOrder_congr {literals others : List String} (h : ∀ l, l ∈ others ↔ l ∈ literals) :
    literalOrder others = literalOrder literals := by
  have hnodup (ls : List String) : (literalOrder ls).Nodup :=
    nodup_eraseReps (fun _ _ => literalLe_antisymm) (pairwise_mergeSort ls)
  have hsorted (ls : List String) : (literalOrder ls).Pairwise fun a b => literalLe a b = true :=
    (pairwise_mergeSort ls).sublist (eraseReps_sublist _)
  have hperm : (literalOrder others).Perm (literalOrder literals) :=
    (List.perm_ext_iff_of_nodup (hnodup others) (hnodup literals)).2 fun l => by
      rw [mem_literalOrder, mem_literalOrder, h]
  exact hperm.eq_of_pairwise (fun _ _ _ _ => literalLe_antisymm) (hsorted others) (hsorted literals)

theorem literal?_congr {literals others : List String} (h : ∀ l, l ∈ others ↔ l ∈ literals) :
    literal? others = literal? literals := by
  have hempty : others.isEmpty = literals.isEmpty := by
    rw [Bool.eq_iff_iff, List.isEmpty_iff, List.isEmpty_iff, List.eq_nil_iff_forall_not_mem,
      List.eq_nil_iff_forall_not_mem]
    exact forall_congr' fun l => not_congr (h l)
  rw [literal?, literal?, literalOrder_congr h, hempty]

theorem exists_literal? {literals : List String} (hne : literals ≠ []) :
    ∃ s, literal? literals = some s :=
  ⟨_, if_neg (by simpa using hne)⟩

end Spec

namespace Pattern

variable {fuel : Nat} {s : Progress} {k : Continuation}

theorem run_word (text : List Char) :
    run fuel (word text) s k =
      if text.isPrefixOf s.cursor.after then k (s.pass text (s.cursor.after.drop text.length))
      else none := by
  induction text generalizing s with
  | nil => exact congrArg k s.pass_nil.symm
  | cons c text ih =>
    change run fuel (cats (set (.single c) :: text.map _)) s k = _
    rw [run_cats]
    cases hafter : s.cursor.after with
    | nil => exact run_set_nil hafter
    | cons d rest =>
      by_cases hd : d = c
      · subst hd
        rw [run_single_self hafter]
        refine ih.trans ?_
        rw [Progress.after_pass, Progress.pass_pass, List.isPrefixOf_cons_cons_self]
        rfl
      · rw [run_single_of_ne (by simpa [hafter] using hd)]
        simp [List.isPrefixOf, Ne.symm hd]

theorem matchAt?_words {texts : List (List Char)} (hne : texts ≠ []) (place : Cursor) :
    (alts (texts.map word)).matchAt? place =
      (texts.find? (·.isPrefixOf place.after)).map fun text =>
        ⟨place.pass text (place.after.drop text.length), []⟩ := by
  rw [matchAt?_alts (by simpa using hne), List.findSome?_map]
  induction texts with
  | nil => exact absurd rfl hne
  | cons text texts ih =>
    have htext : (word text).run place.after.length ⟨place, []⟩ some = _ := run_word text
    rw [List.findSome?_cons, Function.comp_apply, matchAt?, htext, List.find?_cons]
    cases text.isPrefixOf place.after with
    | true => rfl
    | false =>
      cases texts with
      | nil => rfl
      | cons text' texts => exact ih (List.cons_ne_nil _ _)

theorem exists_read_literal {literals : List String} {s : Spec}
    (h : Spec.literal? literals = some s) :
    ∃ p, read s.pattern.toList = .ok p ∧ ∀ place, p.matchAt? place =
      (Direct.longest? (literals.map String.toList) place.after).map fun text =>
        ⟨place.pass text (place.after.drop text.length), []⟩ := by
  have hread := read_words ((Spec.literalOrder literals).map String.toList)
  rw [← Spec.toList_literal h] at hread
  have horder : (Spec.literalOrder literals).map String.toList ≠ [] := by
    obtain ⟨l, more, rfl⟩ : ∃ l more, literals = l :: more := by
      cases literals with
      | nil => cases h
      | cons l more => exact ⟨l, more, rfl⟩
    have hl := Spec.mem_literalOrder.2 (List.mem_cons_self (a := l) (l := more))
    exact List.ne_nil_of_mem (List.mem_map_of_mem hl)
  exact ⟨_, hread, fun place => by rw [matchAt?_words horder, Spec.find?_literalOrder]⟩

theorem recognises_literal {literals : List String} {s : Spec} (h : Spec.literal? literals = some s)
    (hne : ∀ l ∈ literals, l ≠ "") :
    ∃ p, read s.pattern.toList = .ok p ∧
      p.Recognises (Direct.longest? (literals.map String.toList)) := by
  obtain ⟨p, hread, hmatch⟩ := exists_read_literal h
  refine ⟨p, hread, fun {place} hlongest => ?_, fun {place text} hlongest => ?_⟩
  · rw [hmatch, hlongest]
    rfl
  · obtain ⟨htext, hfront, -⟩ := Direct.longest?_eq_some_iff.1 hlongest
    obtain ⟨l, hl, rfl⟩ := List.mem_map.1 htext
    refine ⟨fun hnil => hne l hl (String.toList_eq_nil_iff.1 hnil),
      place.after.drop l.toList.length, (List.prefix_iff_eq_append.1 hfront).symm, ?_⟩
    rw [hmatch, hlongest]
    rfl

/-- At any place the pattern of some literals matches if and only if one of them is at the front, and
then it takes the longest one there and stops behind it. Neither the order of the literals nor how
often each of them is given changes the spec. -/
theorem matchAt?_literal {literals : List String} (hne : literals ≠ []) :
    ∃ s p, Spec.literal? literals = some s ∧ read s.pattern.toList = .ok p ∧
      (∀ place, (p.matchAt? place).isSome ↔ ∃ l ∈ literals, l.toList <+: place.after) ∧
      (∀ place r, p.matchAt? place = some r →
        ∃ l ∈ literals, ∃ rest, place.after = l.toList ++ rest ∧
          (∀ m ∈ literals, m.toList <+: place.after → m.length ≤ l.length) ∧
          r = ⟨place.pass l.toList rest, []⟩) ∧
      ∀ others, (∀ l, l ∈ others ↔ l ∈ literals) → Spec.literal? others = some s := by
  obtain ⟨s, hs⟩ := Spec.exists_literal? hne
  obtain ⟨p, hread, hmatch⟩ := exists_read_literal hs
  refine ⟨s, p, hs, hread, fun place => ?_, fun place r hr => ?_, fun others hothers => ?_⟩
  · have hnone : Direct.longest? (literals.map String.toList) place.after = none ↔
        ∀ l ∈ literals, ¬l.toList <+: place.after :=
      Direct.longest?_eq_none_iff.trans List.forall_mem_map
    rw [hmatch, Option.isSome_map, Option.isSome_iff_ne_none, ne_eq, hnone]
    simp only [not_forall, not_not, exists_prop]
  · rw [hmatch] at hr
    obtain ⟨text, hlongest, rfl⟩ := Option.map_eq_some_iff.1 hr
    obtain ⟨htext, hfront, hle⟩ := Direct.longest?_eq_some_iff.1 hlongest
    obtain ⟨l, hl, rfl⟩ := List.mem_map.1 htext
    refine ⟨l, hl, _, (List.prefix_iff_eq_append.1 hfront).symm, fun m hm hmfront => ?_, rfl⟩
    exact hle m.toList (List.mem_map_of_mem hm) hmfront
  · rw [Spec.literal?_congr hothers, hs]

theorem matchAt?_literal_nested :
    ∃ s p, Spec.literal? ["(", "(é*", "(é", "("] = some s ∧ read s.pattern.toList = .ok p ∧
      p.matchAt? (.ofText "(é*)".toList) = some ⟨⟨['*', 'é', '('], [')'], 4⟩, []⟩ ∧
      p.matchAt? (.ofText "é(".toList) = none ∧ Spec.literal? ["(é*", "(", "(é"] = some s := by
  have hne : ["(", "(é*", "(é", "("] ≠ [] := by decide
  obtain ⟨s, p, hs, hread, hfront, hlongest, hothers⟩ := matchAt?_literal hne
  have hsame (l : String) : l ∈ ["(é*", "(", "(é"] ↔ l ∈ ["(", "(é*", "(é", "("] := by
    simp only [List.mem_cons, List.not_mem_nil, or_false]
    tauto
  refine ⟨s, p, hs, hread, ?_, ?_, hothers _ hsame⟩
  · obtain ⟨r, hr⟩ := Option.isSome_iff_exists.1
      ((hfront (.ofText "(é*)".toList)).2 ⟨"(é*", by decide, by decide⟩)
    obtain ⟨l, hl, rest, hrest, hle, rfl⟩ := hlongest _ r hr
    have hlength := hle "(é*" (by decide) (by decide)
    have hself : ∀ l ∈ ["(", "(é*", "(é", "("], "(é*".length ≤ l.length → l = "(é*" := by decide
    obtain rfl := hself l hl hlength
    change "(é*".toList ++ [')'] = "(é*".toList ++ rest at hrest
    obtain rfl := List.append_cancel_left hrest
    rw [hr]
    rfl
  · rw [← Option.not_isSome_iff_eq_none, hfront]
    decide

end Pattern

end Packrat
