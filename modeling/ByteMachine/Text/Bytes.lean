/-!
# Texts in bytes

Where a text is cut may be given as a number of bytes, each character having as
many as its UTF-8 form. There is no cut through a character, and none behind the
end of the text.
-/

namespace ByteMachine.Text

/-- The number of bytes of a text. -/
def byteSize : List Char → Nat
  | [] => 0
  | c :: rest => c.utf8Size + byteSize rest

/-- The parts of a text before and from a number of bytes on. -/
def cut? : Nat → List Char → Option (List Char × List Char)
  | 0, text => some ([], text)
  | _ + 1, [] => none
  | count + 1, c :: rest =>
    if c.utf8Size ≤ count + 1 then
      (cut? (count + 1 - c.utf8Size) rest).map fun (before, behind) => (c :: before, behind)
    else none

/-! ## Laws -/

/-- Between two texts there can always be a cut. -/
theorem cut?_append (before behind : List Char) :
    cut? (byteSize before) (before ++ behind) = some (before, behind) := by
  induction before with
  | nil => rw [byteSize, List.nil_append, cut?]
  | cons c before ih =>
    obtain ⟨count, hcount⟩ := Nat.exists_eq_succ_of_ne_zero
      (Nat.ne_of_gt (Nat.add_pos_left c.utf8Size_pos (byteSize before)))
    have hrest : count + 1 - c.utf8Size = byteSize before := by omega
    rw [byteSize, hcount, List.cons_append, cut?, if_pos (by omega), hrest, ih]
    rfl

/-- A cut loses nothing and is where it is asked for. -/
theorem eq_append_of_cut? {count : Nat} {text before behind : List Char}
    (h : cut? count text = some (before, behind)) :
    text = before ++ behind ∧ byteSize before = count := by
  fun_induction cut? count text generalizing before behind with
  | case1 text =>
    cases h
    exact ⟨rfl, rfl⟩
  | case2 count => cases h
  | case3 count c rest hfits ih =>
    obtain ⟨⟨start, stop⟩, hcut, hcons⟩ := Option.map_eq_some_iff.mp h
    cases hcons
    obtain ⟨rfl, hsize⟩ := ih hcut
    exact ⟨rfl, by rw [byteSize]; omega⟩
  | case4 count c rest hlong => cases h

end ByteMachine.Text
