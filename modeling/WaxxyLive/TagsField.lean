import WaxxyLive.Lib.FirstSeen
import Mathlib.Data.List.DropRight
import Mathlib.Data.List.Perm.Basic

/-!
# Tag fields and the genre list beside them

Three screens keep a `WSTagsField` and a list `genreTags` that its handlers
edit. `event_inStep`: once the handlers are installed and the two lists agree
without repetitions, every submission and every deletion keeps them so. For
lists with repetitions `onDidRemoveTag_traps_iff` says when a deletion traps.
-/

namespace WaxxyLive.Tags

open FirstSeen

/-- The texts of `tagsField.tags` (their contexts are nil throughout), the list of the screen,
and whether `textFieldEvents` has installed the handlers. -/
structure TagsScreen where
  tags : List String := []
  genreTags : List String := []
  handlers : Bool := false
  deriving DecidableEq, Repr

/-- `CharacterSet.whitespaces`: the general category Zs and the tab. -/
def isWhitespace (c : Char) : Bool :=
  c ∈ ['\t', ' ', '\u00A0', '\u1680', '\u202F', '\u205F', '\u3000'] ||
    ('\u2000' ≤ c && c ≤ '\u200A')

/-- `trimmingCharacters(in: CharacterSet.whitespaces)` -/
def trimmingWhitespaces (text : String) : String :=
  String.ofList ((text.toList.dropWhile isWhitespace).rdropWhile isWhitespace)

section Handlers

-- equality of Swift strings, which is canonical equivalence
variable (same : String → String → Bool)

namespace TagsScreen

def onDidAddTag (s : TagsScreen) (text : String) : TagsScreen :=
  { s with genreTags := s.genreTags ++ [text] }

/-- The loop of `onDidRemoveTag`: it runs over the list as it was when the loop began and
removes from the list as it is; `none` is the trap of `remove(at: idx)`. -/
def removeLoop (text : String) (idx : Nat) : List String → List String → Option (List String)
  | [], genreTags => some genreTags
  | genreTag :: rest, genreTags =>
    if same text genreTag then
      if idx < genreTags.length then removeLoop text (idx + 1) rest (genreTags.eraseIdx idx)
      else none
    else removeLoop text (idx + 1) rest genreTags

def onDidRemoveTag (s : TagsScreen) (text : String) : Option TagsScreen :=
  (removeLoop same text 0 s.genreTags s.genreTags).map fun genreTags => { s with genreTags }

def addTag (s : TagsScreen) (text : String) : TagsScreen :=
  if s.tags.any (same · text) then s
  else if s.handlers then { s with tags := s.tags ++ [text] }.onDidAddTag text
  else { s with tags := s.tags ++ [text] }

def addTags (s : TagsScreen) (texts : List String) : TagsScreen := texts.foldl (addTag same) s

def removeTagAtIndex (s : TagsScreen) (index : Int) : Option TagsScreen :=
  if index < 0 ∨ index ≥ s.tags.length then some s
  else
    let removed : TagsScreen := { s with tags := s.tags.eraseIdx index.toNat }
    if s.handlers then removed.onDidRemoveTag same (s.tags.getD index.toNat "") else some removed

def tokenizeTextFieldText (s : TagsScreen) (text : String) : TagsScreen :=
  if (trimmingWhitespaces text).isEmpty then s else s.addTag same (trimmingWhitespaces text)

/-- The return key with `text` in the field; `onShouldAcceptTag` refuses one text. -/
def textFieldShouldReturn (s : TagsScreen) (text : String) : TagsScreen :=
  if s.handlers && same text "OMG" then s
  else if text.isEmpty then s
  else s.tokenizeTextFieldText same text

def textFieldEvents (s : TagsScreen) : TagsScreen := { s with handlers := true }

end TagsScreen

/-- What the user does to a tag field. -/
inductive TagEvent where
  | submitted (text : String)
  | deleted (index : Int)
  deriving DecidableEq, Repr

def TagsScreen.event (s : TagsScreen) : TagEvent → Option TagsScreen
  | .submitted text => some (s.textFieldShouldReturn same text)
  | .deleted index => s.removeTagAtIndex same index

/-! ## The deletion loop -/

variable {same}

theorem removeLoop_of_no_match {text : String} {rest : List String}
    (h : ∀ g ∈ rest, same text g = false) (idx : Nat) (genreTags : List String) :
    TagsScreen.removeLoop same text idx rest genreTags = some genreTags := by
  induction rest generalizing idx with
  | nil => rfl
  | cons g rest ih =>
    have hg : same text g = false := h g (by simp)
    simp only [TagsScreen.removeLoop, hg, Bool.false_eq_true, if_false]
    exact ih (fun b hb => h b (by simp [hb])) (idx + 1)

/-- With one match the running index is its position. -/
theorem removeLoop_of_one_match {text g : String} {before after genreTags : List String} {idx : Nat}
    (hbefore : ∀ b ∈ before, same text b = false) (hg : same text g)
    (hafter : ∀ b ∈ after, same text b = false) (hlt : idx + before.length < genreTags.length) :
    TagsScreen.removeLoop same text idx (before ++ g :: after) genreTags =
      some (genreTags.eraseIdx (idx + before.length)) := by
  induction before generalizing idx with
  | nil =>
    have hidx : idx < genreTags.length := by simpa using hlt
    simp only [List.nil_append, TagsScreen.removeLoop, hg, if_true, hidx]
    simpa using removeLoop_of_no_match hafter (idx + 1) (genreTags.eraseIdx idx)
  | cons b before ih =>
    have hb : same text b = false := hbefore b (by simp)
    have hnext : idx + 1 + before.length < genreTags.length := by
      simp only [List.length_cons] at hlt
      omega
    have hpos : idx + (b :: before).length = idx + 1 + before.length := by
      simp only [List.length_cons]
      omega
    simp only [List.cons_append, TagsScreen.removeLoop, hb, Bool.false_eq_true, if_false]
    rw [hpos]
    exact ih (fun c hc => hbefore c (by simp [hc])) hnext

/-- In a list without repetitions the deletion loop removes the element it is called with. -/
theorem removeLoop_of_distinct (hsame : Equivalence fun a b => same a b = true) {l : List String}
    (hd : Distinct same l) {i : Nat} (hi : i < l.length) :
    TagsScreen.removeLoop same (l.getD i "") 0 l l = some (l.eraseIdx i) := by
  have hsplit : l = l.take i ++ l[i] :: l.drop (i + 1) := by simp
  have hget : l.getD i "" = l[i] := by simp [hi]
  have hpair : Distinct same (l.take i ++ l[i] :: l.drop (i + 1)) := hsplit ▸ hd
  rcases List.pairwise_append.mp hpair with ⟨-, hright, hcross⟩
  have hbefore : ∀ b ∈ l.take i, same l[i] b = false := by
    intro b hb
    rw [same_comm hsame]
    exact hcross b hb l[i] List.mem_cons_self
  have hafter : ∀ b ∈ l.drop (i + 1), same l[i] b = false :=
    (List.pairwise_cons.mp hright).1
  have hlen : (l.take i).length = i := by simp; omega
  have hloop : TagsScreen.removeLoop same l[i] 0 (l.take i ++ l[i] :: l.drop (i + 1)) l =
      some (l.eraseIdx (0 + (l.take i).length)) :=
    removeLoop_of_one_match hbefore (hsame.refl l[i]) hafter (by omega)
  rw [← hsplit, hlen, Nat.zero_add] at hloop
  rw [hget, hloop]

/-! ## Repeated genres -/

theorem countP_eraseIdx {α : Type*} (p : α → Bool) {l : List α} {i : ℕ} (hi : i < l.length) :
    (l.eraseIdx i).countP p + (if p l[i] then 1 else 0) = l.countP p := by
  rw [← List.countP_cons]
  exact (List.getElem_cons_eraseIdx_perm hi).countP_eq p

theorem drop_eraseIdx_succ {α : Type*} (l : List α) (i : ℕ) :
    (l.eraseIdx i).drop (i + 1) = l.drop (i + 2) := by
  induction l generalizing i with
  | nil => simp
  | cons a l ih =>
    cases i with
    | zero => simp
    | succ i => exact ih i

theorem removeLoop_cons_of_match {text g : String} (hg : same text g) {idx : ℕ}
    {rest genreTags left : List String} :
    TagsScreen.removeLoop same text idx (g :: rest) genreTags = some left ↔
      idx < genreTags.length ∧
        TagsScreen.removeLoop same text (idx + 1) rest (genreTags.eraseIdx idx) = some left := by
  by_cases hidx : idx < genreTags.length <;> simp [TagsScreen.removeLoop, hg, hidx]

theorem removeLoop_cons_of_mismatch {text g : String} (hg : same text g = false) (idx : ℕ)
    (rest genreTags : List String) :
    TagsScreen.removeLoop same text idx (g :: rest) genreTags =
      TagsScreen.removeLoop same text (idx + 1) rest genreTags := by
  simp [TagsScreen.removeLoop, hg]

/-- The loop removes as many elements as the walked list has matches, so no more matches. -/
theorem countP_le_of_removeLoop {text : String} {rest genreTags left : List String} {idx : ℕ}
    (h : TagsScreen.removeLoop same text idx rest genreTags = some left) :
    genreTags.countP (same text) ≤ left.countP (same text) + rest.countP (same text) := by
  induction rest generalizing idx genreTags with
  | nil =>
    obtain rfl : genreTags = left := Option.some.inj h
    simp
  | cons g rest ih =>
    cases hg : same text g with
    | false =>
      rw [removeLoop_cons_of_mismatch hg] at h
      have hrest := ih h
      simp only [List.countP_cons, hg, Bool.false_eq_true, if_false]
      omega
    | true =>
      rcases (removeLoop_cons_of_match hg).mp h with ⟨hidx, hnext⟩
      have hrest := ih hnext
      have hremoved := countP_eraseIdx (same text) hidx
      simp only [List.countP_cons, hg, if_true]
      split_ifs at hremoved <;> omega

/-! Once an element is gone, the index names an element after the one the walk is at. -/

section Ahead

variable {α : Type*} {g : α} {rest l : List α} {idx gone : ℕ}

theorem getElem_mem_of_ahead (hahead : l.drop idx = (g :: rest).drop gone) (hgone : 0 < gone)
    (hidx : idx < l.length) : l[idx] ∈ rest := by
  obtain ⟨n, rfl⟩ : ∃ n, gone = n + 1 := ⟨gone - 1, by omega⟩
  have hmem : l[idx] ∈ rest.drop n := by
    rw [← List.drop_succ_cons (a := g), ← hahead, List.drop_eq_getElem_cons hidx]
    exact List.mem_cons_self
  exact List.mem_of_mem_drop hmem

theorem ahead_of_mismatch (hahead : l.drop idx = (g :: rest).drop gone) :
    l.drop (idx + 1) = rest.drop gone := by
  rw [← List.drop_drop, hahead, List.drop_drop, List.drop_succ_cons]

theorem ahead_of_match (hahead : l.drop idx = (g :: rest).drop gone) :
    (l.eraseIdx idx).drop (idx + 1) = rest.drop (gone + 1) := by
  calc (l.eraseIdx idx).drop (idx + 1)
      = (l.drop idx).drop 2 := by rw [drop_eraseIdx_succ, List.drop_drop]
    _ = ((g :: rest).drop gone).drop 2 := by rw [hahead]
    _ = rest.drop (gone + 1) := by rw [List.drop_drop, List.drop_succ_cons]

end Ahead

/-- From the last match on the index names no match, so one of two or more matches stays. -/
theorem countP_lt_of_removeLoop {text : String} {rest genreTags left : List String}
    {idx gone : ℕ} (h : TagsScreen.removeLoop same text idx rest genreTags = some left)
    (hahead : genreTags.drop idx = rest.drop gone) (hmatch : 0 < rest.countP (same text))
    (htwo : 2 ≤ gone + rest.countP (same text)) :
    genreTags.countP (same text) < left.countP (same text) + rest.countP (same text) := by
  induction rest generalizing idx gone genreTags with
  | nil => simp at hmatch
  | cons g rest ih =>
    cases hg : same text g with
    | false =>
      rw [removeLoop_cons_of_mismatch hg] at h
      simp only [List.countP_cons, hg, Bool.false_eq_true, if_false, Nat.add_zero] at hmatch htwo ⊢
      exact ih h (ahead_of_mismatch hahead) hmatch htwo
    | true =>
      rcases (removeLoop_cons_of_match hg).mp h with ⟨hidx, hnext⟩
      have hremoved := countP_eraseIdx (same text) hidx
      simp only [List.countP_cons, hg, if_true] at htwo ⊢
      by_cases hlast : rest.countP (same text) = 0
      · have hthere : genreTags[idx] ∈ rest := getElem_mem_of_ahead hahead (by omega) hidx
        have hother : ¬ same text genreTags[idx] := List.countP_eq_zero.mp hlast _ hthere
        have hrest := countP_le_of_removeLoop hnext
        rw [if_neg hother] at hremoved
        omega
      · have hrest := ih hnext (ahead_of_match hahead) (by omega) (by omega)
        split_ifs at hremoved <;> omega

theorem removeLoop_of_countP_le_one {text : String} {l : List String}
    (hone : l.countP (same text) ≤ 1) :
    TagsScreen.removeLoop same text 0 l l = some (l.filter fun g => !same text g) := by
  by_cases hmatch : ∃ g ∈ l, same text g
  · rcases hmatch with ⟨g, hmem, hg⟩
    obtain ⟨before, after, rfl⟩ := List.append_of_mem hmem
    have hcount : before.countP (same text) = 0 ∧ after.countP (same text) = 0 := by
      rw [List.countP_append, List.countP_cons_of_pos hg] at hone
      omega
    have hbefore : ∀ b ∈ before, same text b = false := by
      simpa [List.countP_eq_zero] using hcount.1
    have hafter : ∀ b ∈ after, same text b = false := by
      simpa [List.countP_eq_zero] using hcount.2
    have hfilter : (before ++ g :: after).filter (fun g => !same text g) = before ++ after := by
      rw [List.filter_append, List.filter_cons_of_neg (by simp [hg]),
        List.filter_eq_self.mpr (by simpa using hbefore),
        List.filter_eq_self.mpr (by simpa using hafter)]
    rw [removeLoop_of_one_match hbefore hg hafter (by simp), hfilter, Nat.zero_add,
      List.eraseIdx_append_of_length_le (Nat.le_refl _)]
    simp
  · have hnone : ∀ g ∈ l, same text g = false := by simpa using hmatch
    rw [removeLoop_of_no_match hnone, List.filter_eq_self.mpr (by simpa using hnone)]

/-- With two or more matches the loop traps or leaves one of them. -/
theorem removeLoop_leaves_match {text : String} {l left : List String}
    (h : TagsScreen.removeLoop same text 0 l l = some left) (htwo : 2 ≤ l.countP (same text)) :
    0 < left.countP (same text) := by
  have hahead : l.drop 0 = l.drop 0 := rfl
  have hlt := countP_lt_of_removeLoop h hahead (by omega) (by omega)
  omega

theorem exists_split_cons {α : Type*} {a : α} {l : List α} {Q : List α → α → Prop} :
    (∃ before b after, a :: l = before ++ b :: after ∧ Q before b) ↔
      Q [] a ∨ ∃ before b after, l = before ++ b :: after ∧ Q (a :: before) b := by
  constructor
  · rintro ⟨before, b, after, hsplit, hQ⟩
    cases before with
    | nil =>
      obtain ⟨rfl, -⟩ := List.cons.inj hsplit
      exact .inl hQ
    | cons c before =>
      obtain ⟨rfl, hl⟩ := List.cons.inj hsplit
      exact .inr ⟨before, b, after, hl, hQ⟩
  · rintro (hQ | ⟨before, b, after, rfl, hQ⟩)
    · exact ⟨[], a, l, rfl, hQ⟩
    · exact ⟨a :: before, b, after, rfl, hQ⟩

/-- The loop traps at a match that has as many places after it as there are matches before it,
or fewer: each of those has moved the list one place ahead of the index. -/
theorem removeLoop_eq_none_iff {text : String} {rest genreTags : List String} {idx : ℕ} :
    TagsScreen.removeLoop same text idx rest genreTags = none ↔
      ∃ before g after, rest = before ++ g :: after ∧ same text g ∧
        genreTags.length ≤ idx + before.length + before.countP (same text) := by
  induction rest generalizing idx genreTags with
  | nil => simp [TagsScreen.removeLoop]
  | cons g rest ih =>
    rw [exists_split_cons]
    cases hg : same text g with
    | false =>
      have hcount : ∀ before, idx + (before.length + 1) + (g :: before).countP (same text) =
          idx + 1 + before.length + before.countP (same text) := by
        intro before
        rw [List.countP_cons_of_neg (by simp [hg])]
        omega
      rw [removeLoop_cons_of_mismatch hg, ih]
      simp [hcount]
    | true =>
      by_cases hidx : idx < genreTags.length
      · have hcount : ∀ before : List String,
            genreTags.length ≤ idx + (before.length + 1) + (g :: before).countP (same text) ↔
              (genreTags.eraseIdx idx).length ≤
                idx + 1 + before.length + before.countP (same text) := by
          intro before
          rw [List.countP_cons_of_pos hg, List.length_eraseIdx_of_lt hidx]
          omega
        simp only [TagsScreen.removeLoop, hg, if_true, hidx, ih]
        simp [hcount, Nat.not_le.mpr hidx]
      · simp [TagsScreen.removeLoop, hg, hidx, Nat.not_lt.mp hidx]

/-- A deletion traps when some equal genre has more equal genres before it than genres after. -/
theorem onDidRemoveTag_traps_iff {s : TagsScreen} {text : String} :
    s.onDidRemoveTag same text = none ↔ ∃ before g after,
      s.genreTags = before ++ g :: after ∧ same text g ∧
        after.length < before.countP (same text) := by
  rw [TagsScreen.onDidRemoveTag, Option.map_eq_none_iff, removeLoop_eq_none_iff]
  constructor
  · rintro ⟨before, g, after, hsplit, hg, hlen⟩
    refine ⟨before, g, after, hsplit, hg, ?_⟩
    simp only [hsplit, List.length_append, List.length_cons] at hlen
    omega
  · rintro ⟨before, g, after, hsplit, hg, hlen⟩
    refine ⟨before, g, after, hsplit, hg, ?_⟩
    simp only [hsplit, List.length_append, List.length_cons]
    omega

/-- **Deletions.** The handler removes exactly the genres equal to the tag, and does not trap, when
and only when there is at most one of them. -/
theorem onDidRemoveTag_removes_iff (same : String → String → Bool) (s : TagsScreen)
    (text : String) :
    s.onDidRemoveTag same text =
        some { s with genreTags := s.genreTags.filter fun g => !same text g } ↔
      s.genreTags.countP (same text) ≤ 1 := by
  have hloop : s.onDidRemoveTag same text =
        some { s with genreTags := s.genreTags.filter fun g => !same text g } ↔
      TagsScreen.removeLoop same text 0 s.genreTags s.genreTags =
        some (s.genreTags.filter fun g => !same text g) := by
    simp [TagsScreen.onDidRemoveTag]
  rw [hloop]
  constructor
  · intro h
    by_contra htwo
    have hleft := removeLoop_leaves_match h (by omega)
    have hnone : (s.genreTags.filter fun g => !same text g).countP (same text) = 0 := by
      simp [List.countP_eq_zero]
    omega
  · exact removeLoop_of_countP_le_one

/-- A genre listed twice: the second removal is past the end. -/
theorem repeated_genre_traps : ¬ ∀ (s : TagsScreen) (text : String),
    s.onDidRemoveTag (· == ·) text =
      some { s with genreTags := s.genreTags.filter fun g => !(text == g) } := by
  intro h
  have htrap := h ⟨["House"], ["House", "House"], true⟩ "House"
  revert htrap
  decide

/-! ## Adding tags -/

theorem addTag_of_seen {s : TagsScreen} {text : String} (h : ∃ b ∈ s.tags, same b text) :
    s.addTag same text = s := by
  have hany : s.tags.any (same · text) = true := List.any_eq_true.mpr h
  simp [TagsScreen.addTag, hany]

theorem addTag_of_unseen {s : TagsScreen} {text : String} (h : ∀ b ∈ s.tags, same b text = false) :
    s.addTag same text = if s.handlers then
      { s with tags := s.tags ++ [text], genreTags := s.genreTags ++ [text] }
    else { s with tags := s.tags ++ [text] } := by
  have hany : s.tags.any (same · text) = false := by simpa using h
  simp [TagsScreen.addTag, TagsScreen.onDidAddTag, hany]

theorem addTags_of_no_handlers (s : TagsScreen) (h : s.handlers = false) (texts : List String) :
    s.addTags same texts = { s with tags := addAll same s.tags texts } := by
  induction texts generalizing s with
  | nil => rfl
  | cons text texts ih =>
    have hadd : s.addTag same text = { s with tags := add same s.tags text } := by
      rcases seen_or_unseen same s.tags text with hs | hs
      · rw [addTag_of_seen hs, add_of_seen hs]
      · rw [addTag_of_unseen hs, add_of_unseen hs]
        simp [h]
    rw [TagsScreen.addTags, List.foldl_cons, hadd]
    exact ih { s with tags := add same s.tags text } h

/-! ## The two lists in step -/

variable (same) in
/-- The handlers are installed and `genreTags` is what the field shows, without repetitions. -/
structure TagsScreen.InStep (s : TagsScreen) : Prop where
  handlers : s.handlers = true
  mirror : s.genreTags = s.tags
  distinct : Distinct same s.tags

theorem addTag_inStep {s : TagsScreen} (h : s.InStep same) (text : String) :
    (s.addTag same text).InStep same := by
  rcases seen_or_unseen same s.tags text with hs | hs
  · rwa [addTag_of_seen hs]
  · have hdist : Distinct same (s.tags ++ [text]) := by
      rw [← add_of_unseen hs]
      exact distinct_add h.distinct text
    rw [addTag_of_unseen hs, if_pos h.handlers]
    exact ⟨h.handlers, by simp [h.mirror], hdist⟩

theorem textFieldShouldReturn_inStep {s : TagsScreen} (h : s.InStep same) (text : String) :
    (s.textFieldShouldReturn same text).InStep same := by
  unfold TagsScreen.textFieldShouldReturn TagsScreen.tokenizeTextFieldText
  split_ifs
  · exact h
  · exact h
  · exact h
  · exact addTag_inStep h (trimmingWhitespaces text)

/-- A deletion removes one tag and its genre, and does not trap. -/
theorem removeTagAtIndex_inStep (hsame : Equivalence fun a b => same a b = true) {s : TagsScreen}
    (h : s.InStep same) (index : Int) :
    ∃ s', s.removeTagAtIndex same index = some s' ∧ s'.InStep same := by
  by_cases hout : index < 0 ∨ index ≥ s.tags.length
  · exact ⟨s, by simp [TagsScreen.removeTagAtIndex, hout], h⟩
  · have hi : index.toNat < s.tags.length := by omega
    have hloop := removeLoop_of_distinct hsame h.distinct hi
    have hremove : s.removeTagAtIndex same index = some { s with
        tags := s.tags.eraseIdx index.toNat, genreTags := s.tags.eraseIdx index.toNat } := by
      rw [TagsScreen.removeTagAtIndex, if_neg hout, if_pos h.handlers, TagsScreen.onDidRemoveTag]
      dsimp only
      rw [h.mirror, hloop]
      rfl
    exact ⟨_, hremove, h.handlers, rfl, h.distinct.eraseIdx index.toNat⟩

theorem event_inStep (hsame : Equivalence fun a b => same a b = true) {s : TagsScreen}
    (h : s.InStep same) (e : TagEvent) : ∃ s', s.event same e = some s' ∧ s'.InStep same := by
  cases e with
  | submitted text => exact ⟨_, rfl, textFieldShouldReturn_inStep h text⟩
  | deleted index => exact removeTagAtIndex_inStep hsame h index

end Handlers

end WaxxyLive.Tags
