/-!
# Text

A text is the list of its characters, so every function on it is a recursion on the list. A string
literal stands for its characters. Main statement: the pieces of a cut text, put together again
with the delimiter, are the text.
-/

namespace TriBench

abbrev Text := List Char

instance : Coe String Text := ⟨String.toList⟩

namespace Text

instance instLawfulBEq : LawfulBEq Text := inferInstance

def toString (s : Text) : String := String.ofList s

def ofNat (n : Nat) : Text := Nat.toDigits 10 n

def ofInt : Int → Text
  | .ofNat n => ofNat n
  | .negSucc n => '-' :: ofNat (n + 1)

def joinWith (sep : Text) (pieces : List Text) : Text := sep.intercalate pieces

def consHead (c : Char) : List Text → List Text
  | [] => [[c]]
  | p :: ps => (c :: p) :: ps

/-- The pieces between the occurrences of `d`: one more than there are occurrences. -/
def splitOn (d : Char) : Text → List Text
  | [] => [[]]
  | c :: r => if c = d then [] :: splitOn d r else consHead c (splitOn d r)

def byteLength (s : Text) : Nat := s.foldr (fun c n => c.utf8Size + n) 0

def padRight (width : Nat) (s : Text) : Text := s ++ List.replicate (width - s.length) ' '

def padLeft (width : Nat) (s : Text) : Text := List.replicate (width - s.length) ' ' ++ s

def contains (part : Text) : Text → Bool
  | [] => part.isEmpty
  | c :: r => part.isPrefixOf (c :: r) || contains part r

/-- The text with every occurrence of `old`, which is not empty, replaced by `new`, from left to
right. -/
def replaceAll (old new : Text) (s : Text) : Text :=
  go 0 s
where
  /-- The first argument counts the characters of an occurrence that are still to be dropped. -/
  go : Nat → Text → Text
    | _, [] => []
    | k + 1, _ :: r => go k r
    | 0, c :: r => if old.isPrefixOf (c :: r) then new ++ go (old.length - 1) r else c :: go 0 r

theorem length_padRight {w : Nat} {s : Text} (h : s.length ≤ w) : (padRight w s).length = w := by
  simp [padRight, h]

theorem length_padLeft {w : Nat} {s : Text} (h : s.length ≤ w) : (padLeft w s).length = w := by
  simp [padLeft, h]

theorem splitOn_ne_nil (d : Char) (s : Text) : splitOn d s ≠ [] := by
  induction s with
  | nil => simp [splitOn]
  | cons c r _ =>
    unfold splitOn
    split
    · simp
    · cases splitOn d r <;> simp [consHead]

theorem joinWith_splitOn (d : Char) (s : Text) : joinWith [d] (splitOn d s) = s := by
  induction s with
  | nil => simp [splitOn, joinWith]
  | cons c r ih =>
    unfold splitOn
    have hne := splitOn_ne_nil d r
    cases h : splitOn d r with
    | nil => exact absurd h hne
    | cons p ps =>
      rw [h] at ih
      split
      · rename_i hc
        simp only [joinWith, List.intercalate_cons_cons] at ih ⊢
        simp [ih, hc]
      · cases ps <;> simp_all [joinWith, consHead, List.intercalate]

theorem not_mem_of_mem_splitOn {d : Char} {s p : Text} (h : p ∈ splitOn d s) : d ∉ p := by
  induction s generalizing p with
  | nil => simp [splitOn] at h; simp [h]
  | cons c r ih =>
    unfold splitOn at h
    split at h
    · rcases List.mem_cons.1 h with rfl | h
      · simp
      · exact ih h
    · rename_i hc
      cases hs : splitOn d r with
      | nil => exact absurd hs (splitOn_ne_nil d r)
      | cons q qs =>
        rw [hs] at h ih
        rcases List.mem_cons.1 h with rfl | h
        · simp [Ne.symm hc, ih (List.mem_cons_self ..)]
        · exact ih (List.mem_cons_of_mem _ h)

end Text

end TriBench
