import BlockScript.Proofs.Text.Tokens
import Mathlib.Data.List.Forall2

/-!
# Cuts between tokens

In a text of tokens nothing is cut but between two of them, at a token that is the word or the operator looked for:

* `Text.splitAtWord_eq_some`, `Text.splitAtWord_eq_none`: the first token that is the word;
* `Arithmetic.split?_eq_sum`, `Arithmetic.split?_eq_product`, `Arithmetic.split?_eq_none`: the last token that is an
  operator of the lowest precedence.
-/

namespace BlockScript

namespace Text

/-- Two texts that go on up to the same sort of character are the same. -/
private theorem eq_of_stop {p : Char → Bool} {s t r r' : Text} {e : Char} (hs : ∀ c ∈ s, p c = false)
    (ht : ∀ c ∈ t, p c = false) (hr : ∀ c ∈ r.head?, p c = true) (he : p e = true) (h : s ++ r = t ++ e :: r') :
    s = t ∧ r = e :: r' := by
  have htake {u v : Text} (hu : ∀ c ∈ u, p c = false) (hv : ∀ c ∈ v.head?, p c = true) :
      (u ++ v).takeWhile (!p ·) = u := by
    rw [List.takeWhile_append_of_pos fun c hc => by rw [hu c hc]; rfl]
    cases v with
    | nil => simp
    | cons c v => rw [List.takeWhile_cons_of_neg (by simp [hv c rfl]), List.append_nil]
  have hst : s = t := by
    rw [← htake hs hr, h, htake ht (by simpa using he)]
  subst hst
  exact ⟨rfl, List.append_cancel_left h⟩

theorem IsPlain.ne_blank {c : Char} (h : IsPlain c) : c ≠ ' ' := by
  rintro rfl
  have hblank := h.notBlank
  revert hblank
  decide

/-! ### Words -/

/-- A word at which texts are split: a token without brackets. -/
def IsSplitter (word : Text) : Prop :=
  (Token.word word).IsValid ∨ word = ['<'] ∨ word = ['>']

variable {word : Text}

theorem IsSplitter.notBlank (h : IsSplitter word) : ∀ c ∈ word, isBlank c = false := by
  rcases h with ⟨-, h⟩ | rfl | rfl
  · exact fun c hc => (h c hc).notBlank
  · exact forall_of_all (by decide)
  · exact forall_of_all (by decide)

/-- The depths around a word are those of the groups around it. -/
private theorem IsSplitter.depths (h : IsSplitter word) (previous : Option Char) (rest : Text) :
    ∃ c, depthsWithin [] ([] : List Bracket).length previous (' ' :: (word ++ ' ' :: rest)) =
      List.replicate (word.length + 2) 0 ++ depthsWithin [] ([] : List Bracket).length (some c) rest := by
  obtain ⟨k, hk, rfl, hflat⟩ : ∃ k : Token, k.IsValid ∧ k.text = word ∧
      ∀ ds, k.HasDepths 0 ds → ds = List.replicate k.text.length 0 := by
    rcases h with h | rfl | rfl
    · exact ⟨.word word, h, rfl, fun ds hds => by cases hds; rfl⟩
    · exact ⟨.sign '<', .inl rfl, rfl, fun ds hds => by cases hds; rfl⟩
    · exact ⟨.sign '>', .inr rfl, rfl, fun ds hds => by cases hds; rfl⟩
  obtain ⟨ds, c, -, hds, hdepths⟩ := @Token.exists_depths k [] (some ' ') (' ' :: rest) hk (fun _ => rfl) fun _ => rfl
  refine ⟨' ', ?_⟩
  rw [depths_blank, hdepths, depths_blank, hflat ds hds, List.replicate_succ, List.replicate_succ', List.cons_append,
    List.append_assoc]
  rfl

private theorem ne_opener (h : IsSplitter word) {b : Bracket} {c : Char} {rest rest' : Text}
    (hc : isBlank c = false) : word ++ ' ' :: rest ≠ b.opener :: c :: rest' := by
  intro he
  rcases h with ⟨hne, h⟩ | rfl | rfl
  · obtain ⟨d, word, rfl⟩ := List.exists_cons_of_ne_nil hne
    obtain ⟨rfl, -⟩ := List.cons.inj he
    have hopener := (h _ List.mem_cons_self).opener
    rw [Bracket.ofOpener?_eq_some_iff.2 rfl] at hopener
    cases hopener
  · obtain ⟨-, he⟩ := List.cons.inj he
    obtain ⟨rfl, -⟩ := List.cons.inj he
    revert hc
    decide
  · obtain ⟨hb, -⟩ := List.cons.inj he
    cases b <;> revert hb <;> decide

/-- A word in front of a blank that a token begins with is the token. -/
private theorem text_eq_of_begins (hword : IsSplitter word) {k : Token} (hk : k.IsValid) {follow : Text}
    (hfollow : ∀ c ∈ follow.head?, isBlank c = true)
    (hbegins : (word ++ [' ']).isPrefixOf (k.text ++ follow) = true) : k.text = word := by
  obtain ⟨rest, hrest⟩ := List.isPrefixOf_iff_prefix.1 hbegins
  rw [List.append_assoc, List.singleton_append] at hrest
  cases k with
  | word t => exact (eq_of_stop (fun c hc => (hk.2 c hc).notBlank) hword.notBlank hfollow (by decide) hrest.symm).1
  | sign c =>
    have hc : ∀ d ∈ [c], isBlank d = false :=
      List.forall_mem_singleton.2 (by rcases hk with rfl | rfl <;> decide)
    exact (eq_of_stop hc hword.notBlank hfollow (by decide) hrest.symm).1
  | group b inside =>
    obtain ⟨d, tail, rfl, hd⟩ := IsTrimmed.first (IsClosed.toIsTrimmed hk)
    exact absurd hrest (ne_opener hword hd)

variable {separator : Text}

private theorem cutAt_cons (hseparator : separator.head? = some ' ') {c : Char} {d : Nat} {before rest : Text}
    {ds : List Nat} (h : c = ' ' → d ≠ 0) :
    cutAt separator before (c :: rest) (d :: ds) = cutAt separator (c :: before) rest ds := by
  obtain ⟨tail, rfl⟩ := List.head?_eq_some_iff.1 hseparator
  rw [cutAt, if_neg]
  rw [Bool.and_eq_true]
  rintro ⟨hbegins, houtside⟩
  obtain ⟨follow, hfollow⟩ := List.isPrefixOf_iff_prefix.1 hbegins
  obtain ⟨rfl, -⟩ := List.cons.inj hfollow
  simp [isOutside] at houtside
  exact h rfl houtside.1

/-- A text is cut at the separator that it begins with. -/
private theorem cutAt_separator (hseparator : separator.head? = some ' ') {before rest : Text} {d : Nat}
    {ds : List Nat} {sides : Text × Text} (houtside : isOutside separator.length (d :: ds) = true)
    (hsides : sides? before.reverse rest = some sides) : cutAt separator before (separator ++ rest) (d :: ds) =
      some sides := by
  obtain ⟨tail, rfl⟩ := List.head?_eq_some_iff.1 hseparator
  have hbegins : (' ' :: tail).isPrefixOf (' ' :: (tail ++ rest)) = true :=
    List.isPrefixOf_iff_prefix.2 (List.prefix_append (' ' :: tail) rest)
  have hdrop : (' ' :: (tail ++ rest)).drop (' ' :: tail).length = rest := @List.drop_left _ (' ' :: tail) rest
  rw [List.cons_append, cutAt, if_pos (by rw [hbegins, houtside]; rfl), hdrop, hsides]
  rfl

/-- Nothing is cut inside of a token. -/
private theorem cutAt_token (hseparator : separator.head? = some ' ') {k : Token} (hk : k.IsValid) {ds : List Nat}
    (hds : k.HasDepths 0 ds) (before rest : Text) (ds' : List Nat) :
    cutAt separator before (k.text ++ rest) (ds ++ ds') = cutAt separator (k.text.reverse ++ before) rest ds' := by
  -- blanks only occur where a group is open
  have hskip {u : Text} {ds : List Nat} (h : List.Forall₂ (fun c d => c = ' ' → d ≠ 0) u ds) (before : Text) :
      cutAt separator before (u ++ rest) (ds ++ ds') = cutAt separator (u.reverse ++ before) rest ds' := by
    induction h generalizing before with
    | nil => rfl
    | cons hcd _ ih =>
      rw [List.cons_append, List.cons_append, cutAt_cons hseparator hcd, ih, List.reverse_cons, List.append_assoc]
      rfl
  refine hskip (List.forall₂_iff_zip.2 ⟨hds.length_eq.symm, fun {c d} hmem hc => ?_⟩) before
  subst hc
  cases hds with
  | word => exact absurd rfl (hk.2 _ (List.of_mem_zip hmem).1).ne_blank
  | sign => rcases hk with rfl | rfl <;> simp [Token.text] at hmem
  | @group b inside ds hlength hdeeper =>
    have hopener : ' ' ≠ b.opener := by cases b <;> decide
    have hcloser : ' ' ≠ b.closer := by cases b <;> decide
    rw [Token.text, List.zip_cons_cons, List.zip_append hlength.symm] at hmem
    simp only [List.mem_cons, List.mem_append, Prod.mk.injEq, List.zip_cons_cons, List.zip_nil_left, List.not_mem_nil,
      or_false] at hmem
    rcases hmem with ⟨h, -⟩ | h | ⟨h, -⟩
    · exact absurd h hopener
    · exact Nat.ne_of_gt (hdeeper d (List.of_mem_zip h).2)
    · exact absurd h hcloser

/-- Nothing is cut at a token that is not the word. -/
private theorem cutAt_blank (hword : IsSplitter word) {k : Token} (hk : k.IsValid) (hne : k.text ≠ word)
    {follow : Text} (hfollow : ∀ c ∈ follow.head?, isBlank c = true) (before : Text) (d : Nat) (ds : List Nat) :
    cutAt (' ' :: word ++ [' ']) before (' ' :: (k.text ++ follow)) (d :: ds) =
      cutAt (' ' :: word ++ [' ']) (' ' :: before) (k.text ++ follow) ds := by
  rw [cutAt, if_neg]
  rw [Bool.and_eq_true]
  rintro ⟨hbegins, -⟩
  exact hne (text_eq_of_begins hword hk hfollow (by simpa using hbegins))

/-- Behind the first of several tokens there is a blank. -/
private theorem exists_spaced_cons (k : Token) (ks : List Token) {follow : Text}
    (hblank : ∀ c ∈ follow.head?, isBlank c = true) :
    ∃ rest : Text, spaced (k :: ks) ++ follow = k.text ++ rest ∧ ∀ c ∈ rest.head?, isBlank c = true := by
  by_cases hks : ks = []
  · subst hks
    exact ⟨follow, rfl, hblank⟩
  · refine ⟨' ' :: (spaced ks ++ follow), by rw [spaced_cons hks, List.append_assoc]; rfl, ?_⟩
    intro c hc
    obtain rfl := Option.some.inj hc
    decide

/-- Nothing is cut up to the end of tokens that are not the word. -/
private theorem cutAt_spaced (hword : IsSplitter word) {ks : List Token} (hne : ks ≠ [])
    (hvalid : ∀ k ∈ ks, k.IsValid) (hks : ∀ k ∈ ks, k.text ≠ word) {before : Text} {previous : Option Char}
    (hprevious : ∀ k ∈ ks.head?, k.isSign = true → previous = some ' ') {follow : Text}
    (hblank : ∀ c ∈ follow.head?, isBlank c = true)
    (hfollow : ∀ k ∈ ks.getLast?, k.isSign = true → follow.head? = some ' ') :
    ∃ c, cutAt (' ' :: word ++ [' ']) before (spaced ks ++ follow)
        (depthsWithin [] ([] : List Bracket).length previous (spaced ks ++ follow)) =
      cutAt (' ' :: word ++ [' ']) ((spaced ks).reverse ++ before) follow
        (depthsWithin [] ([] : List Bracket).length (some c) follow) := by
  induction ks generalizing before previous with
  | nil => exact absurd rfl hne
  | cons k ks ih =>
    obtain ⟨hk, hvalid⟩ := List.forall_mem_cons.1 hvalid
    obtain ⟨-, hks⟩ := List.forall_mem_cons.1 hks
    by_cases htail : ks = []
    · subst htail
      obtain ⟨ds, c, -, hds, hdepths⟩ := @Token.exists_depths k [] previous follow hk (hprevious k rfl) (hfollow k rfl)
      refine ⟨c, ?_⟩
      rw [spaced, hdepths, cutAt_token rfl hk hds]
    · obtain ⟨ds, c, -, hds, hdepths⟩ := @Token.exists_depths k [] previous (' ' :: (spaced ks ++ follow)) hk
        (hprevious k rfl) fun _ => rfl
      rw [List.getLast?_cons_of_ne_nil htail] at hfollow
      obtain ⟨c', hcut⟩ := @ih htail hvalid hks (' ' :: (k.text.reverse ++ before)) (some ' ') (fun _ _ _ => rfl)
        hfollow
      refine ⟨c', ?_⟩
      -- the token behind the blank is not the word
      obtain ⟨k', ks, rfl⟩ := List.exists_cons_of_ne_nil htail
      obtain ⟨follow', hfollow', hblank'⟩ := exists_spaced_cons k' ks hblank
      have hskip := cutAt_blank hword (hvalid k' List.mem_cons_self) (hks k' List.mem_cons_self) hblank'
        (k.text.reverse ++ before) 0 (depthsWithin [] 0 (some ' ') (spaced (k' :: ks) ++ follow))
      rw [← hfollow'] at hskip
      have htext : spaced (k :: k' :: ks) ++ follow = k.text ++ ' ' :: (spaced (k' :: ks) ++ follow) := by
        rw [spaced_cons htail, List.append_assoc]
        rfl
      rw [htext, hdepths, cutAt_token rfl hk hds, depths_blank]
      refine hskip.trans (hcut.trans ?_)
      rw [spaced_cons htail]
      simp

/-- A text without the word as a token does not split at the word. -/
theorem splitAtWord_eq_none (hword : IsSplitter word) {ks : List Token} (h : AreTokens ks)
    (hks : ∀ k ∈ ks, k.text ≠ word) : splitAtWord word (spaced ks) = none := by
  obtain ⟨c, hcut⟩ := @cutAt_spaced word hword ks h.ne_nil h.valid hks [] none
    (fun k hk hsign => absurd hsign (h.not_isSign k hk)) [] nofun
    (fun k hk hsign => by rw [h.last k hk] at hsign; cases hsign)
  rw [List.append_nil] at hcut
  exact hcut

/-- A text splits at the first token that is the word. -/
theorem splitAtWord_eq_some (hword : IsSplitter word) {ks : List Token} (h : AreTokens ks)
    (hks : ∀ k ∈ ks, k.text ≠ word) {right : Text} (hright : right.IsTrimmed) :
    splitAtWord word (spaced ks ++ ' ' :: (word ++ ' ' :: right)) = some (spaced ks, right) := by
  obtain ⟨c, hcut⟩ := @cutAt_spaced word hword ks h.ne_nil h.valid hks [] none
    (fun k hk hsign => absurd hsign (h.not_isSign k hk)) (' ' :: (word ++ ' ' :: right))
    (fun c hc => by obtain rfl := Option.some.inj hc; decide) fun _ _ _ => rfl
  rw [List.append_nil] at hcut
  have htext : ' ' :: (word ++ ' ' :: right) = ' ' :: word ++ [' '] ++ right := by simp
  have hcount : (' ' :: word ++ [' ']).length = word.length + 2 := by simp
  obtain ⟨c', hdepths⟩ := hword.depths (some c) right
  have houtside : isOutside (' ' :: word ++ [' ']).length (0 :: (List.replicate (word.length + 1) 0 ++
      depthsWithin [] ([] : List Bracket).length (some c') right)) = true := by
    rw [isOutside, hcount, ← List.cons_append, ← List.replicate_succ, List.take_left' List.length_replicate]
    simp
  have hleft := h.isTrimmed
  have hsides : sides? (spaced ks).reverse.reverse right = some (spaced ks, right) := by
    simp [sides?, trim_eq_self hleft, trim_eq_self hright, hleft.ne_nil, hright.ne_nil]
  refine Eq.trans hcut ?_
  rw [hdepths, htext]
  exact cutAt_separator rfl houtside hsides

end Text

namespace Arithmetic

open Text

theorem not_isEdge_of_isPlain {c : Char} (h : IsPlain c) : isEdge c = false := by
  have hne (b : Bracket) : c ≠ b.opener ∧ c ≠ b.closer := by
    constructor
    · rintro rfl
      have hopener := h.opener
      rw [Bracket.ofOpener?_eq_some_iff.2 rfl] at hopener
      cases hopener
    · rintro rfl
      have hcloser := h.closer
      rw [Bracket.ofCloser?_eq_some_iff.2 rfl] at hcloser
      cases hcloser
  have hround := hne .round
  have hsquare := hne .square
  simp only [Bracket.opener, Bracket.closer] at hround hsquare
  simp [isEdge, h.notBlank, hround, hsquare]

theorem isEdge_blank : isEdge ' ' = true := by
  decide

section Operators

variable {operators : List Operator} (hoperators : ∀ o ∈ operators, (Token.word o.sign).IsValid)

include hoperators

/-- No operator begins with a bracket, an angle sign or a blank. -/
private theorem operatorAt?_eq_none_of_not_isPlain {c : Char} (hc : ¬IsPlain c) (rest : Text) :
    operatorAt? operators (c :: rest) = none := by
  rw [operatorAt?, List.findSome?_eq_none_iff]
  intro o ho
  obtain ⟨hne, hplain⟩ := hoperators o ho
  obtain ⟨d, sign, hsign⟩ := List.exists_cons_of_ne_nil hne
  rw [hsign] at hplain
  cases hafter : after? o.sign (c :: rest) with
  | none => rfl
  | some follow =>
    have heq := after?_eq_some_iff.1 hafter
    rw [hsign] at heq
    obtain ⟨rfl, -⟩ := List.cons.inj heq
    exact absurd (hplain c List.mem_cons_self) hc

/-- An operator that a word begins with is the word. -/
private theorem operatorAt?_eq_none_of_word {t follow : Text} (ht : ∀ c ∈ t, IsPlain c)
    (hne : ∀ o ∈ operators, t ≠ o.sign) (hfollow : ∀ c ∈ follow.head?, isEdge c = true) :
    operatorAt? operators (t ++ follow) = none := by
  rw [operatorAt?, List.findSome?_eq_none_iff]
  intro o ho
  cases hafter : after? o.sign (t ++ follow) with
  | none => rfl
  | some rest =>
    have heq := after?_eq_some_iff.1 hafter
    rw [Option.bind_some, if_neg]
    intro hedge
    cases rest with
    | nil => cases hedge
    | cons e rest =>
      exact hne o ho (eq_of_stop (fun c hc => not_isEdge_of_isPlain (ht c hc))
        (fun c hc => not_isEdge_of_isPlain ((hoperators o ho).2 c hc)) hfollow hedge heq).1

omit hoperators in
private theorem lastCut?_cons {c : Char} {d : Nat} {before ahead : Text} {ds : List Nat}
    (hrest : lastCut? operators (c :: before) ahead ds = none)
    (hown : d ≠ 0 ∨ before.head?.any isEdge = false ∨ operatorAt? operators (c :: ahead) = none) :
    lastCut? operators before (c :: ahead) (d :: ds) = none := by
  rw [lastCut?, hrest]
  dsimp only
  split
  · rename_i hcut
    obtain ⟨hdepth, hedge⟩ := Bool.and_eq_true_iff.1 hcut
    rcases hown with hd | hbefore | hnone
    · exact absurd (of_decide_eq_true hdepth) hd
    · rw [hbefore] at hedge
      cases hedge
    · rw [hnone]
      rfl
  · rfl

omit hoperators in
/-- Within a word there is no edge on the left. -/
private theorem lastCut?_word {t before rest : Text} {d : Nat} {ds : List Nat} (ht : ∀ c ∈ t, IsPlain c)
    (hbefore : before.head?.any isEdge = false)
    (hrest : lastCut? operators (t.reverse ++ before) rest ds = none) :
    lastCut? operators before (t ++ rest) (List.replicate t.length d ++ ds) = none := by
  induction t generalizing before with
  | nil => exact hrest
  | cons c t ih =>
    obtain ⟨hc, ht⟩ := List.forall_mem_cons.1 ht
    refine lastCut?_cons (ih ht (not_isEdge_of_isPlain hc) ?_) (.inr (.inl hbefore))
    simpa using hrest

omit hoperators in
/-- Where a group is open there is no cut. -/
private theorem lastCut?_inside {t before rest : Text} {ds ds' : List Nat} (hlength : ds.length = t.length)
    (hds : ∀ d ∈ ds, 0 < d) (hrest : lastCut? operators (t.reverse ++ before) rest ds' = none) :
    lastCut? operators before (t ++ rest) (ds ++ ds') = none := by
  induction t generalizing before ds with
  | nil =>
    obtain rfl := List.eq_nil_of_length_eq_zero hlength
    exact hrest
  | cons c t ih =>
    obtain ⟨d, ds, rfl⟩ := List.exists_cons_of_length_eq_add_one hlength
    obtain ⟨hd, hds⟩ := List.forall_mem_cons.1 hds
    refine lastCut?_cons (ih (Nat.succ.inj hlength) hds ?_) (.inl (Nat.ne_of_gt hd))
    simpa using hrest

/-- There is no cut at a token that is no operator, if there is none behind it. -/
private theorem lastCut?_token {k : Token} (hk : k.IsValid) (hne : ∀ o ∈ operators, k.text ≠ o.sign)
    {ds ds' : List Nat} (hds : k.HasDepths 0 ds) {before follow : Text}
    (hfollow : ∀ c ∈ follow.head?, isEdge c = true)
    (hrest : lastCut? operators (k.text.reverse ++ before) follow ds' = none) :
    lastCut? operators before (k.text ++ follow) (ds ++ ds') = none := by
  cases hds with
  | @word t =>
    obtain ⟨hnil, ht⟩ := hk
    have hnone := operatorAt?_eq_none_of_word hoperators ht hne hfollow
    obtain ⟨c, t, rfl⟩ := List.exists_cons_of_ne_nil hnil
    obtain ⟨hc, ht⟩ := List.forall_mem_cons.1 ht
    exact lastCut?_cons (lastCut?_word ht (not_isEdge_of_isPlain hc) (by simpa [Token.text] using hrest))
      (.inr (.inr hnone))
  | @sign c =>
    have hc : ¬IsPlain c := by
      intro hplain
      rcases hk with rfl | rfl
      · cases hplain.opener
      · cases hplain.closer
    exact lastCut?_cons hrest (.inr (.inr (operatorAt?_eq_none_of_not_isPlain hoperators hc _)))
  | @group b inside ds hlength hdeeper =>
    have hopener : ¬IsPlain b.opener := by
      intro hplain
      have hnone := hplain.opener
      rw [Bracket.ofOpener?_eq_some_iff.2 rfl] at hnone
      cases hnone
    have hcloser : ¬IsPlain b.closer := by
      intro hplain
      have hnone := hplain.closer
      rw [Bracket.ofCloser?_eq_some_iff.2 rfl] at hnone
      cases hnone
    have hlast : lastCut? operators (inside.reverse ++ b.opener :: before) (b.closer :: follow) (0 :: ds') = none :=
      lastCut?_cons (by simpa [Token.text] using hrest)
        (.inr (.inr (operatorAt?_eq_none_of_not_isPlain hoperators hcloser _)))
    have hinside := lastCut?_inside hlength hdeeper hlast
    have htext : (Token.group b inside).text ++ follow = b.opener :: (inside ++ b.closer :: follow) := by
      simp [Token.text]
    rw [htext, List.cons_append, List.append_assoc]
    exact lastCut?_cons hinside (.inr (.inr (operatorAt?_eq_none_of_not_isPlain hoperators hopener _)))

/-- Tokens that are no operators are not cut. -/
private theorem lastCut?_spaced {ks : List Token} (h : AreTrailing ks)
    (hks : ∀ k ∈ ks, ∀ o ∈ operators, k.text ≠ o.sign) {before : Text} {previous : Option Char}
    (hprevious : ∀ k ∈ ks.head?, k.isSign = true → previous = some ' ') :
    lastCut? operators before (spaced ks)
      (depthsWithin [] ([] : List Bracket).length previous (spaced ks)) = none := by
  induction ks generalizing before previous with
  | nil => exact absurd rfl h.ne_nil
  | cons k ks ih =>
    have hk := h.valid k List.mem_cons_self
    obtain ⟨hne, hks⟩ := List.forall_mem_cons.1 hks
    by_cases htail : ks = []
    · subst htail
      have hsign : ¬k.isSign = true := by rw [h.last k rfl]; decide
      obtain ⟨ds, c, -, hds, hdepths⟩ := @Token.exists_depths k [] previous [] hk (hprevious k rfl)
        fun hk => absurd hk hsign
      have hcut := @lastCut?_token operators hoperators k hk hne ds [] hds before [] nofun rfl
      rw [List.append_nil, List.append_nil] at hcut
      rw [List.append_nil, depthsWithin, List.append_nil] at hdepths
      rw [spaced, hdepths, hcut]
    · obtain ⟨ds, c, -, hds, hdepths⟩ := @Token.exists_depths k [] previous (' ' :: spaced ks) hk (hprevious k rfl)
        fun _ => rfl
      rw [spaced_cons htail, hdepths, depths_blank]
      refine lastCut?_token hoperators hk hne hds (fun c hc => ?_) ?_
      · obtain rfl := Option.some.inj hc
        exact isEdge_blank
      · have hblank : ¬IsPlain ' ' := fun hplain => hplain.ne_blank rfl
        exact lastCut?_cons (ih (h.tail htail) hks fun _ _ _ => rfl)
          (.inr (.inr (operatorAt?_eq_none_of_not_isPlain hoperators hblank _)))

omit hoperators in
/-- A cut further ahead comes first. -/
private theorem lastCut?_append {t before rest : Text} {ds ds' : List Nat} {cut : Cut}
    (hlength : ds.length = t.length) (h : lastCut? operators (t.reverse ++ before) rest ds' = some cut) :
    lastCut? operators before (t ++ rest) (ds ++ ds') = some cut := by
  induction t generalizing before ds with
  | nil =>
    obtain rfl := List.eq_nil_of_length_eq_zero hlength
    exact h
  | cons c t ih =>
    obtain ⟨d, ds, rfl⟩ := List.exists_cons_of_length_eq_add_one hlength
    have hrest : lastCut? operators (c :: before) (t ++ rest) (ds ++ ds') = some cut :=
      ih (Nat.succ.inj hlength) (by simpa using h)
    rw [List.cons_append, List.cons_append, lastCut?, hrest]

/-- An operator behind a blank is cut at if nothing behind it is. -/
private theorem lastCut?_sign {o : Operator} (ho : o ∈ operators)
    (hat : ∀ rest, operatorAt? operators (o.sign ++ ' ' :: rest) = some (o, ' ' :: rest)) {before follow : Text}
    {ds : List Nat} (hbehind : ∀ before, lastCut? operators before (' ' :: follow) ds = none) :
    lastCut? operators (' ' :: before) (o.sign ++ ' ' :: follow) (List.replicate o.sign.length 0 ++ ds) =
      some ⟨o.operation, trim (' ' :: before).reverse, trim (' ' :: follow)⟩ := by
  obtain ⟨hne, hplain⟩ := hoperators o ho
  have hfound := hat follow
  obtain ⟨c, sign, hsign⟩ := List.exists_cons_of_ne_nil hne
  rw [hsign] at hplain hfound ⊢
  obtain ⟨hc, hplain⟩ := List.forall_mem_cons.1 hplain
  have hlater := @lastCut?_word operators sign (c :: ' ' :: before) (' ' :: follow) 0 ds hplain
    (not_isEdge_of_isPlain hc) (hbehind _)
  rw [List.cons_append] at hfound ⊢
  rw [List.length_cons, List.replicate_succ, List.cons_append, lastCut?, hlater]
  show (if decide (0 = 0) && isEdge ' ' then _ else none) = _
  rw [if_pos (by decide), hfound, Option.map_some]

/-- A text is cut at an operator behind which there are no others. -/
private theorem lastCut?_operator {o : Operator} (ho : o ∈ operators)
    (hat : ∀ rest, operatorAt? operators (o.sign ++ ' ' :: rest) = some (o, ' ' :: rest)) {left : Text}
    (hleft : left.IsClosed) {ks : List Token} (h : AreTokens ks)
    (hks : ∀ k ∈ ks, ∀ o ∈ operators, k.text ≠ o.sign) :
    lastCut? operators [] (left ++ ' ' :: (o.sign ++ ' ' :: spaced ks))
      (depths (left ++ ' ' :: (o.sign ++ ' ' :: spaced ks))) = some ⟨o.operation, left, spaced ks⟩ := by
  obtain ⟨ds, c, -, hlength, -, hdepths⟩ := hleft.exists_depths [] none (' ' :: (o.sign ++ ' ' :: spaced ks))
  obtain ⟨_, c', -, ⟨⟩, hdepthsSign⟩ := @Token.exists_depths (.word o.sign) [] (some ' ') (' ' :: spaced ks)
    (hoperators o ho) nofun nofun
  have hbehind (before : Text) : lastCut? operators before (' ' :: spaced ks)
      (depthsWithin [] ([] : List Bracket).length (some c') (' ' :: spaced ks)) = none := by
    have hblank : ¬IsPlain ' ' := fun hplain => hplain.ne_blank rfl
    rw [depths_blank]
    exact lastCut?_cons (lastCut?_spaced hoperators h.toAreTrailing hks fun _ _ _ => rfl)
      (.inr (.inr (operatorAt?_eq_none_of_not_isPlain hoperators hblank _)))
  have hcut := @lastCut?_sign operators hoperators o ho hat left.reverse _ _ hbehind
  rw [List.reverse_cons, List.reverse_reverse, trim_append_blank hleft.toIsTrimmed, trim_cons_blank,
    trim_eq_self h.isTrimmed] at hcut
  rw [depths]
  refine (congrArg (lastCut? operators [] _) hdepths).trans (lastCut?_append hlength ?_)
  rw [List.append_nil, depths_blank]
  refine (congrArg (fun ds => lastCut? operators left.reverse _ (0 :: ds)) hdepthsSign).trans ?_
  exact @lastCut?_append operators [' '] left.reverse _ [0] _ _ rfl hcut

/-- Tokens that are no operators are not cut. -/
private theorem lastCut?_eq_none {ks : List Token} (h : AreTokens ks)
    (hks : ∀ k ∈ ks, ∀ o ∈ operators, k.text ≠ o.sign) :
    lastCut? operators [] (spaced ks) (depths (spaced ks)) = none :=
  lastCut?_spaced hoperators h.toAreTrailing hks fun k hk hsign => absurd hsign (h.not_isSign k hk)

end Operators

theorem isValid_sums : ∀ o ∈ sums, (Token.word o.sign).IsValid := by
  have hsums : ∀ o ∈ sums, o.sign ≠ [] ∧ o.sign.all (IsPlain ·) = true := by decide
  exact fun o ho => ⟨(hsums o ho).1, forall_of_all (hsums o ho).2⟩

theorem isValid_products : ∀ o ∈ products, (Token.word o.sign).IsValid := by
  have hproducts : ∀ o ∈ products, o.sign ≠ [] ∧ o.sign.all (IsPlain ·) = true := by decide
  exact fun o ho => ⟨(hproducts o ho).1, forall_of_all (hproducts o ho).2⟩

/-- A sum splits at its last sign. -/
theorem split?_eq_sum {o : Operator} (ho : o ∈ sums) {left : Text} (hleft : left.IsClosed) {ks : List Token}
    (h : AreTokens ks) (hks : ∀ k ∈ ks, ∀ o ∈ sums, k.text ≠ o.sign) :
    split? (left ++ ' ' :: (o.sign ++ ' ' :: spaced ks)) = some ⟨o.operation, left, spaced ks⟩ := by
  have hat (rest : Text) : operatorAt? sums (o.sign ++ ' ' :: rest) = some (o, ' ' :: rest) := by
    simp only [sums, List.mem_cons, List.not_mem_nil, or_false] at ho
    rcases ho with rfl | rfl <;> rfl
  rw [split?, lastCut?_operator isValid_sums ho hat hleft h hks, Option.some_or]

/-- A product splits at its last sign. -/
theorem split?_eq_product {o : Operator} (ho : o ∈ products) {ks ks' : List Token} (h : AreTokens ks)
    (h' : AreTokens ks') (hsums : ∀ k ∈ ks ++ ks', ∀ o ∈ sums, k.text ≠ o.sign)
    (hproducts : ∀ k ∈ ks', ∀ o ∈ products, k.text ≠ o.sign) :
    split? (spaced ks ++ ' ' :: (o.sign ++ ' ' :: spaced ks')) = some ⟨o.operation, spaced ks, spaced ks'⟩ := by
  have hat (rest : Text) : operatorAt? products (o.sign ++ ' ' :: rest) = some (o, ' ' :: rest) := by
    simp only [products, List.mem_cons, List.not_mem_nil, or_false] at ho
    rcases ho with rfl | rfl | rfl <;> rfl
  have hdistinct : ∀ o ∈ products, ∀ o' ∈ sums, o.sign ≠ o'.sign := by decide
  have hword : (Token.word o.sign).IsValid := isValid_products o ho
  have hnone := lastCut?_eq_none isValid_sums (h.append hword h') fun k hk => by
    rcases List.mem_append.1 hk with hk | hk
    · exact hsums k (List.mem_append_left _ hk)
    · rcases List.mem_cons.1 hk with rfl | hk
      · exact hdistinct o ho
      · exact hsums k (List.mem_append_right _ hk)
  rw [h.spaced_append h'] at hnone
  rw [split?]
  refine (congrArg (Option.or · _) hnone).trans ?_
  rw [Option.none_or, lastCut?_operator isValid_products ho hat h.isClosed h' hproducts]

/-- A text without signs as tokens does not split. -/
theorem split?_eq_none {ks : List Token} (h : AreTokens ks)
    (hks : ∀ k ∈ ks, ∀ o ∈ sums ++ products, k.text ≠ o.sign) : split? (spaced ks) = none := by
  rw [split?, lastCut?_eq_none isValid_sums h fun k hk o ho => hks k hk o (List.mem_append_left _ ho),
    lastCut?_eq_none isValid_products h fun k hk o ho => hks k hk o (List.mem_append_right _ ho), Option.none_or]

end Arithmetic

end BlockScript
