import TriBench.Proofs.Results.Records
import TriBench.Proofs.Sample.Grammar

/-!
# Outputs in a row

An output that starts on a new line after another is read as if it came alone, but for the numbers
of its lines. Main statements: `parseBatch_append`, and `batches_add_up` for what two outputs in a
row bring into the table.
-/

namespace TriBench

def BatchError.shifted (n : Nat) : BatchError → BatchError
  | param line value => param (line + n) value
  | noRecords lines => noRecords (lines + n)

namespace Sample

/-- What becomes of two outputs in a row by what becomes of each, the first of which has `n` lines. -/
def inRow (n : Nat) :
    Except BatchError (List Sample) → Except BatchError (List Sample) → Except BatchError (List Sample)
  | .ok ss, .ok ss' => .ok (ss ++ ss')
  | .ok ss, .error (.noRecords _) => .ok ss
  | .ok _, .error (.param line value) => .error (.param (line + n) value)
  | .error (.noRecords _), r => r.mapError (·.shifted n)
  | .error (.param line value), _ => .error (.param line value)

section
variable {ls ls' : List Text} {r r' : Except BatchError (List Sample)}

theorem exists_tells_of_noRow (h : ∀ l ∈ ls, ¬ IsRow l) : ∀ l ∈ ls, IsRow l → ∃ s, Tells l s :=
  fun l hl hrow => absurd hrow (h l hl)

theorem exists_tells_of_forall₂ {ss : List Sample} (h : List.Forall₂ Tells (ls.filter IsRow) ss) :
    ∀ l ∈ ls, IsRow l → ∃ s, Tells l s := by
  intro l hl hrow
  exact exists_forall₂_tells_iff.1 ⟨ss, h⟩ l (List.mem_filter.2 ⟨hl, by simpa using hrow⟩)

theorem filter_isRow_eq_nil (h : ∀ l ∈ ls, ¬ IsRow l) : ls.filter IsRow = [] := by
  rw [List.filter_eq_nil_iff]
  intro l hl
  simpa using h l hl

/-- A row that does not fit has been preceded by the lines of both outputs. -/
theorem verdict_of_misfit (h : ∀ l ∈ ls, IsRow l → ∃ s, Tells l s) {before after : List Text} {l value : Text}
    (hbefore : ∀ r ∈ before, IsRow r → ∃ s, Tells r s) (hl : Misfit l value) :
    Verdict (ls ++ (before ++ l :: after)) (.error (.param (before.length + 1 + ls.length) value)) := by
  have hlines : ls ++ (before ++ l :: after) = (ls ++ before) ++ l :: after := by simp
  have hnumber : before.length + 1 + ls.length = (ls ++ before).length + 1 := by
    rw [List.length_append]
    omega
  rw [hnumber]
  exact .misfit hlines (List.forall_mem_append.2 ⟨h, hbefore⟩) hl

theorem Verdict.append (h : Verdict ls r) (h' : Verdict ls' r') :
    Verdict (ls ++ ls') (inRow ls.length r r') := by
  cases h with
  | @accepted ss hne hrows =>
    have htells := exists_tells_of_forall₂ hrows
    cases h' with
    | @accepted ss' hne' hrows' =>
      refine .accepted (by simp [hne]) ?_
      rw [List.filter_append]
      exact List.rel_append hrows hrows'
    | misfit hlines hbefore hl =>
      rw [hlines]
      exact verdict_of_misfit htells hbefore hl
    | noRecords hnone =>
      refine .accepted hne ?_
      rw [List.filter_append, filter_isRow_eq_nil hnone, List.append_nil]
      exact hrows
  | misfit hlines hbefore hl => exact .misfit (by rw [hlines, List.append_assoc, List.cons_append]) hbefore hl
  | noRecords hnone =>
    cases h' with
    | accepted hne' hrows' =>
      refine .accepted hne' ?_
      rw [List.filter_append, filter_isRow_eq_nil hnone, List.nil_append]
      exact hrows'
    | misfit hlines hbefore hl =>
      rw [hlines]
      exact verdict_of_misfit (exists_tells_of_noRow hnone) hbefore hl
    | noRecords hnone' =>
      have hboth := Verdict.noRecords (List.forall_mem_append.2 ⟨hnone, hnone'⟩)
      rwa [List.length_append, Nat.add_comm] at hboth

/-- **Reading goes line by line.** -/
theorem parseBatch_append {a : Text} (h : a.EndsLine) (b : Text) :
    parseBatch (a ++ b) = inRow (Text.lines a).length (parseBatch a) (parseBatch b) := by
  obtain ⟨as, has, hverdict⟩ := parseBatch_eq_iff.1 (rfl : parseBatch a = _)
  obtain ⟨bs, hbs, hverdict'⟩ := parseBatch_eq_iff.1 (rfl : parseBatch b = _)
  rw [has.lines_eq]
  exact parseBatch_eq_iff.2 ⟨as ++ bs, has.append h hbs, hverdict.append hverdict'⟩

end

end Sample

namespace Results

/-- **Outputs in a row.** If both outputs are taken in, the two in a row bring the table to where it
is after one and then the other, with as many samples. If one has no record, the two are as the
other alone, up to the numbers of its lines. A parameter that is no integer is reported in its line,
after the lines of the first output if it is in the second, and then nothing is written. -/
theorem batches_add_up (t : Results) (p : Platform) (a b : Text) (h : a = [] ∨ a.getLast? = some '\n') :
    (∀ ss ss', Sample.parseBatch a = .ok ss → Sample.parseBatch b = .ok ss' →
      ∃ t₁ t₂ m n, t.absorb p a = .ok (t₁, m) ∧ t₁.absorb p b = .ok (t₂, n) ∧
        t.absorb p (a ++ b) = .ok (t₂, m + n)) ∧
    (∀ k, Sample.parseBatch a = .error (.noRecords k) →
      t.absorb p (a ++ b) = (t.absorb p b).mapError (·.shifted (Text.lines a).length)) ∧
    (∀ k, Sample.parseBatch b = .error (.noRecords k) → (∀ k', Sample.parseBatch a ≠ .error (.noRecords k')) →
      t.absorb p (a ++ b) = t.absorb p a) ∧
    (∀ line value, (∀ line' value', Sample.parseBatch a ≠ .error (.param line' value')) →
      Sample.parseBatch b = .error (.param line value) →
      t.absorb p (a ++ b) = .error (.param (line + (Text.lines a).length) value) ∧ t.after p (a ++ b) = t) ∧
    (∀ line value, Sample.parseBatch a = .error (.param line value) →
      t.absorb p (a ++ b) = .error (.param line value) ∧ t.after p (a ++ b) = t) := by
  have hread := Sample.parseBatch_append h b
  have hrejected : ∀ {e}, Sample.parseBatch (a ++ b) = .error e →
      t.absorb p (a ++ b) = .error e ∧ t.after p (a ++ b) = t := by
    intro e he
    have habsorb := absorb_of_error t p he
    exact ⟨habsorb, by rw [after, habsorb]⟩
  refine ⟨fun ss ss' ha hb => ?_, fun k ha => ?_, fun k hb hne => ?_, fun line value hne hb => ?_,
    fun line value ha => ?_⟩
  · rw [ha, hb] at hread
    refine ⟨_, _, _, _, absorb_of_ok t p ha, absorb_of_ok _ p hb, ?_⟩
    rw [absorb_of_ok t p hread, List.foldl_append, List.length_append]
  · rw [ha] at hread
    cases hb : Sample.parseBatch b with
    | error e =>
      rw [hb] at hread
      rw [absorb_of_error t p hb, absorb_of_error t p hread]
      rfl
    | ok ss =>
      rw [hb] at hread
      rw [absorb_of_ok t p hb, absorb_of_ok t p hread]
      rfl
  · rw [hb] at hread
    cases ha : Sample.parseBatch a with
    | error e =>
      cases e with
      | noRecords k' => exact absurd ha (hne k')
      | param line value =>
        rw [ha] at hread
        rw [absorb_of_error t p ha, absorb_of_error t p hread]
    | ok ss =>
      rw [ha] at hread
      rw [absorb_of_ok t p ha, absorb_of_ok t p hread]
  · rw [hb] at hread
    refine hrejected ?_
    cases ha : Sample.parseBatch a with
    | error e =>
      cases e with
      | noRecords k' => rw [hread, ha]; rfl
      | param line' value' => exact absurd ha (hne line' value')
    | ok ss => rw [hread, ha]; rfl
  · rw [ha] at hread
    exact hrejected hread

/-- Two samples of one key on both sides of a seam, and a parameter that is no integer in the second
line after it. -/
theorem batches_add_up_seam :
    let a : Text := "a\t1\t2\t3\r\n"
    let rest : Text := "b\na\t1\t5\t6"
    let misfit : Text := "b\na\tx\t5\t6"
    let once := putSample .lind empty ⟨"a", 1, "2", "3"⟩
    (a = [] ∨ a.getLast? = some '\n') ∧ Sample.parseBatch a = .ok [⟨"a", 1, "2", "3"⟩] ∧
      Sample.parseBatch rest = .ok [⟨"a", 1, "5", "6"⟩] ∧ Sample.parseBatch misfit = .error (.param 2 "x") ∧
      empty.absorb .lind (a ++ rest) = .ok (putSample .lind once ⟨"a", 1, "5", "6"⟩, 2) ∧
      empty.absorb .lind (a ++ misfit) = .error (.param 3 "x") := by
  intro a rest misfit once
  have hend : a = [] ∨ a.getLast? = some '\n' := by decide
  have ha : Sample.parseBatch a = .ok [⟨"a", 1, "2", "3"⟩] := by rfl
  have hrest : Sample.parseBatch rest = .ok [⟨"a", 1, "5", "6"⟩] := by rfl
  have hmisfit : Sample.parseBatch misfit = .error (.param 2 "x") := by rfl
  refine ⟨hend, ha, hrest, hmisfit, ?_, ?_⟩
  · obtain ⟨t₁, t₂, m, n, h₁, h₂, hboth⟩ := (batches_add_up empty .lind a rest hend).1 _ _ ha hrest
    rw [absorb_of_ok empty .lind ha] at h₁
    cases h₁
    rw [absorb_of_ok _ .lind hrest] at h₂
    cases h₂
    exact hboth
  · exact ((batches_add_up empty .lind a misfit hend).2.2.2.1 2 "x" (by rw [ha]; nofun) hmisfit).1

end Results

end TriBench
