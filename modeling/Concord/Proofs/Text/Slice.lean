import Concord.Diagnostic.Basic

/-!
# Slicing a text

A stretch can be cut out of a text if it lies within the text and both of its ends stand between two
characters.

* `cut?` cuts a text at a byte and `slice?` cuts a stretch out of it, if there are such boundaries;
  `cut?_eq_some_iff` and `slice?_eq_some_iff` say what they give.
* `Span.Sliceable` says of a stretch that it can be cut out of a text, and `Span.sliceable_iff` that
  `slice?` then does so.  The lemmas about it are for the stretches that places are made of: what
  stands between two parts of a text, the empty stretches at both ends of a text, and the shortest
  stretch that holds two others.
* `splitAt?` cuts a list by number, if the list is that long.
-/

set_option autoImplicit false

namespace Concord

/-- A text is as long as its characters. -/
theorem utf8Length_toList (s : String) : utf8Length s.toList = s.utf8ByteSize := by
  have h : ∀ cs : List Char, utf8Length cs = (String.ofList cs).utf8ByteSize := by
    intro cs
    induction cs with
    | nil => rfl
    | cons c cs ih =>
      rw [utf8Length_cons, ih, String.ofList_cons, String.utf8ByteSize_append,
        String.utf8ByteSize_singleton]
  rw [h, String.ofList_toList]

/-- The end of the front of a text is a boundary of characters. -/
theorem isValid_of_toList_eq {source : String} {before after : List Char}
    (h : source.toList = before ++ after) :
    String.Pos.Raw.IsValid source ⟨utf8Length before⟩ := by
  rw [String.Pos.Raw.isValid_iff_exists_append]
  refine ⟨String.ofList before, String.ofList after, ?_, ?_⟩
  · rw [← String.ofList_append, ← h, String.ofList_toList]
  · have hlength := utf8Length_toList (String.ofList before)
    rw [String.toList_ofList] at hlength
    rw [hlength]
    rfl

/-! ## Cutting -/

/-- A text in front of byte `n` and from there on, if that is a boundary of characters. -/
def cut? : (n : Nat) → List Char → Option (List Char × List Char)
  | 0, cs => some ([], cs)
  | _ + 1, [] => none
  | n + 1, c :: cs =>
    if c.utf8Size ≤ n + 1 then
      (cut? (n + 1 - c.utf8Size) cs).map fun (front, back) ↦ (c :: front, back)
    else none

/-- What a text has in a stretch, if the ends of the stretch are boundaries of characters. -/
def slice? (cs : List Char) (s : Span) : Option (List Char) :=
  if s.start ≤ s.stop then
    (cut? s.start cs).bind fun (_, back) ↦ (cut? (s.stop - s.start) back).map Prod.fst
  else none

theorem cut?_append (front back : List Char) :
    cut? (utf8Length front) (front ++ back) = some (front, back) := by
  induction front with
  | nil => rw [utf8Length_nil, List.nil_append, cut?]
  | cons c front ih =>
    obtain ⟨n, hn⟩ : ∃ n, utf8Length (c :: front) = n + 1 :=
      Nat.exists_eq_succ_of_ne_zero (Nat.ne_of_gt (utf8Length_pos (List.cons_ne_nil c front)))
    have hsub : n + 1 - c.utf8Size = utf8Length front := by
      rw [← hn, utf8Length_cons, Nat.add_sub_cancel_left]
    have hle : c.utf8Size ≤ n + 1 := by
      rw [← hn, utf8Length_cons]
      exact Nat.le_add_right _ _
    rw [hn, List.cons_append, cut?, if_pos hle, hsub, ih]
    rfl

theorem append_of_cut? {n : Nat} {cs front back : List Char} (h : cut? n cs = some (front, back)) :
    cs = front ++ back ∧ utf8Length front = n := by
  fun_induction cut? n cs generalizing front with
  | case1 cs =>
    obtain ⟨rfl, rfl⟩ := Prod.mk.inj (Option.some_inj.mp h)
    exact ⟨rfl, rfl⟩
  | case2 => contradiction
  | case3 n c cs hle ih =>
    obtain ⟨⟨front, _⟩, hfront, he⟩ := Option.map_eq_some_iff.mp h
    obtain ⟨rfl, rfl⟩ := Prod.mk.inj he
    obtain ⟨rfl, hlength⟩ := ih hfront
    refine ⟨rfl, ?_⟩
    rw [utf8Length_cons, hlength]
    omega
  | case4 => contradiction

/-- **A text is cut at a boundary of characters**, and nowhere else. -/
theorem cut?_eq_some_iff {n : Nat} {cs front back : List Char} :
    cut? n cs = some (front, back) ↔ cs = front ++ back ∧ utf8Length front = n := by
  refine ⟨append_of_cut?, ?_⟩
  rintro ⟨rfl, rfl⟩
  exact cut?_append front back

/-- **What is cut out of a text** stands in it between the ends of the stretch. -/
theorem slice?_eq_some_iff {cs text : List Char} {s : Span} :
    slice? cs s = some text ↔ ∃ front back, cs = front ++ text ++ back ∧
      s = ⟨utf8Length front, utf8Length front + utf8Length text⟩ := by
  obtain ⟨start, stop⟩ := s
  rw [slice?]
  constructor
  · intro h
    split at h
    · rename_i hle
      obtain ⟨⟨front, rest⟩, hfront, h⟩ := Option.bind_eq_some_iff.mp h
      obtain ⟨⟨_, back⟩, htext, rfl⟩ := Option.map_eq_some_iff.mp h
      obtain ⟨rfl, rfl⟩ := append_of_cut? hfront
      obtain ⟨rfl, hlength⟩ := append_of_cut? htext
      exact ⟨front, back, (List.append_assoc ..).symm, by rw [hlength, Nat.add_sub_cancel' hle]⟩
    · contradiction
  · rintro ⟨front, back, rfl, hspan⟩
    obtain ⟨rfl, rfl⟩ := Span.mk.inj hspan
    rw [if_pos (Nat.le_add_right _ _), List.append_assoc, cut?_append, Option.bind_some,
      Nat.add_sub_cancel_left]
    dsimp only
    rw [cut?_append, Option.map_some]

/-! ## Stretches that can be cut out -/

/-- A boundary of characters is the end of a front of the text. -/
theorem exists_of_isValid {source : String} {n : Nat}
    (h : String.Pos.Raw.IsValid source ⟨n⟩) :
    ∃ front back, source.toList = front ++ back ∧ utf8Length front = n := by
  obtain ⟨front, back, hsource, hn⟩ := String.Pos.Raw.isValid_iff_exists_append.mp h
  refine ⟨front.toList, back.toList, by rw [hsource, String.toList_append], ?_⟩
  rw [utf8Length_toList]
  exact (congrArg String.Pos.Raw.byteIdx hn).symm

/-- Of two fronts of a text, the shorter one is a front of the other. -/
theorem prefix_of_utf8Length_le {front front' cs : List Char} (h : front <+: cs)
    (h' : front' <+: cs) (hle : utf8Length front ≤ utf8Length front') : front <+: front' := by
  rcases List.prefix_or_prefix_of_prefix h h' with h | ⟨rest, rfl⟩
  · exact h
  · rw [utf8Length_append] at hle
    cases rest with
    | nil => simp
    | cons c rest =>
      have hpos := utf8Length_pos (List.cons_ne_nil c rest)
      omega

namespace Span

/-- The stretch can be cut out of a text. -/
structure Sliceable (s : Span) (source : String) : Prop where
  start_le : s.start ≤ s.stop
  /-- The stretch lies within the text. -/
  stop_le : s.stop ≤ source.utf8ByteSize
  start_valid : String.Pos.Raw.IsValid source ⟨s.start⟩
  stop_valid : String.Pos.Raw.IsValid source ⟨s.stop⟩

variable {source : String}

/-- A part of a text can be cut out of it. -/
theorem sliceable_of_toList_eq {before text after : List Char}
    (h : source.toList = before ++ text ++ after) :
    Sliceable ⟨utf8Length before, utf8Length before + utf8Length text⟩ source where
  start_le := Nat.le_add_right _ _
  stop_le := by
    have hlength := congrArg utf8Length h
    rw [utf8Length_toList, utf8Length_append, utf8Length_append] at hlength
    rw [hlength]
    exact Nat.le_add_right _ _
  start_valid := isValid_of_toList_eq (by rw [h, List.append_assoc])
  stop_valid := by
    rw [← utf8Length_append]
    exact isValid_of_toList_eq h

/-- **A stretch can be cut out** just where slicing gives its text. -/
theorem sliceable_iff {s : Span} :
    s.Sliceable source ↔ ∃ text, slice? source.toList s = some text := by
  simp only [slice?_eq_some_iff]
  constructor
  · intro h
    obtain ⟨front, rest, hfront, hstart⟩ := exists_of_isValid h.start_valid
    obtain ⟨all, back, hall, hstop⟩ := exists_of_isValid h.stop_valid
    have hle := h.start_le
    rw [← hstart, ← hstop] at hle
    obtain ⟨text, rfl⟩ := prefix_of_utf8Length_le ⟨rest, hfront.symm⟩ ⟨back, hall.symm⟩ hle
    refine ⟨text, front, back, hall, ?_⟩
    rw [← utf8Length_append, hstart, hstop]
  · rintro ⟨text, front, back, hsource, rfl⟩
    exact sliceable_of_toList_eq hsource

/-- The empty stretch at the front of a text. -/
theorem sliceable_emptyAt_zero (source : String) : (emptyAt 0).Sliceable source :=
  have h : source.toList = [] ++ [] ++ source.toList := rfl
  sliceable_of_toList_eq h

/-- The empty stretch at the end of a text. -/
theorem sliceable_emptyAt_end (source : String) :
    (emptyAt source.utf8ByteSize).Sliceable source := by
  have h : source.toList = source.toList ++ [] ++ [] := by simp
  have hslice := sliceable_of_toList_eq h
  rwa [utf8Length_toList] at hslice

/-- The shortest stretch that holds two others. -/
theorem Sliceable.cover {s u : Span} (hs : s.Sliceable source) (hu : u.Sliceable source) :
    (s.cover u).Sliceable source where
  start_le := Nat.le_trans (Nat.min_le_left ..) (Nat.le_trans hs.start_le (Nat.le_max_left ..))
  stop_le := Nat.max_le.mpr ⟨hs.stop_le, hu.stop_le⟩
  start_valid := by
    rw [Span.cover]
    dsimp only
    rw [Nat.min_def]
    split
    · exact hs.start_valid
    · exact hu.start_valid
  stop_valid := by
    rw [Span.cover]
    dsimp only
    rw [Nat.max_def]
    split
    · exact hu.stop_valid
    · exact hs.stop_valid

end Span

/-- The stretches of a diagnostic and of its notes can be cut out of a text. -/
structure Diagnostic.Sliceable (d : Diagnostic) (source : String) : Prop where
  span : d.span.Sliceable source
  related : ∀ n ∈ d.related, n.span.Sliceable source

/-! ## Cutting lists -/

section Lists

variable {α : Type}

/-- A list in front of number `n` and from there on, if it is that long. -/
def splitAt? (n : Nat) (as : List α) : Option (List α × List α) :=
  if n ≤ as.length then some (as.take n, as.drop n) else none

theorem splitAt?_append (front back : List α) :
    splitAt? front.length (front ++ back) = some (front, back) := by
  rw [splitAt?, if_pos (by simp), List.take_left, List.drop_left]

end Lists

end Concord
