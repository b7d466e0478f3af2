import TriBench.Results
import TriBench.Proofs.OrderedMap

/-!
# Records of the results

What a write does to every record, and how the records of a table are listed: in the order of their
keys, each once, as many as the table says. An output that is rejected writes nothing.
-/

namespace TriBench

namespace Results

theorem record?_put (t : Results) (p : Platform) (test test' : Text) (param param' : Int)
    (a l : Measurement) :
    (t.put p test param a l).record? test' param' =
      if test' = test ∧ param' = param then some (((t.record? test param).getD .blank).set p a l)
      else t.record? test' param' := by
  unfold put record?
  by_cases ht : test' = test
  · subst ht
    rw [OrderedMap.get?_alter_self]
    by_cases hp : param' = param
    · subst hp
      rw [Option.bind_some, OrderedMap.get?_alter_self]
      cases t.get? test' <;> simp
    · rw [Option.bind_some, OrderedMap.get?_alter_of_ne _ hp]
      cases t.get? test' <;> simp [hp]
  · rw [OrderedMap.get?_alter_of_ne _ ht]
    simp [ht]

/-! ## Taking in one output -/

/-- The table after an attempt to take in an output. -/
def after (t : Results) (p : Platform) (output : Text) : Results :=
  match t.absorb p output with
  | .ok (t', _) => t'
  | .error _ => t

/-- The samples that an output brings into the table: all of them or, if it is rejected, none. -/
def accepted (output : Text) : List Sample := ((Sample.parseBatch output).toOption).getD []

theorem accepted_of_ok {output : Text} {ss : List Sample} (h : Sample.parseBatch output = .ok ss) :
    accepted output = ss := by
  simp [accepted, h, Except.toOption]

theorem accepted_of_error {output : Text} {e : BatchError} (h : Sample.parseBatch output = .error e) :
    accepted output = [] := by
  simp [accepted, h, Except.toOption]

theorem absorb_of_ok (t : Results) (p : Platform) {output : Text} {ss : List Sample}
    (h : Sample.parseBatch output = .ok ss) :
    t.absorb p output = .ok (ss.foldl (putSample p) t, ss.length) := by
  simp [absorb, h, Except.map]

theorem absorb_of_error (t : Results) (p : Platform) {output : Text} {e : BatchError}
    (h : Sample.parseBatch output = .error e) : t.absorb p output = .error e := by
  simp [absorb, h, Except.map]

theorem after_eq (t : Results) (p : Platform) (output : Text) :
    t.after p output = (accepted output).foldl (putSample p) t := by
  unfold after
  cases h : Sample.parseBatch output with
  | error e => rw [absorb_of_error t p h, accepted_of_error h]; rfl
  | ok ss => rw [absorb_of_ok t p h, accepted_of_ok h]

/-! ## Columns -/

/-- A column in the record of the test with the parameter; a missing record has nothing in it. -/
def columnAt (t : Results) (test : Text) (param : Int) (p : Platform) : Measurement :=
  ((t.record? test param).getD .blank).column p

section
variable (test : Text) (param : Int) {p : Platform}

theorem columnAt_putSample {q : Platform} (hq : q ≠ p) (t : Results) (s : Sample) :
    (putSample p t s).columnAt test param q = t.columnAt test param q := by
  unfold columnAt putSample
  rw [record?_put]
  split
  · rename_i h
    rw [Option.getD_some, Record.column_set, if_neg hq, h.1, h.2]
  · rfl

theorem columnAt_after {q : Platform} (hq : q ≠ p) (t : Results) (output : Text) :
    (t.after p output).columnAt test param q = t.columnAt test param q := by
  rw [after_eq]
  induction accepted output generalizing t with
  | nil => rfl
  | cons s ss ih => rw [List.foldl_cons, ih, columnAt_putSample test param hq]

theorem isSome_record?_putSample {t : Results} (h : (t.record? test param).isSome) (s : Sample) :
    ((putSample p t s).record? test param).isSome := by
  rw [putSample, record?_put]
  split
  · rfl
  · exact h

theorem isSome_record?_after {t : Results} (h : (t.record? test param).isSome) (output : Text) :
    ((t.after p output).record? test param).isSome := by
  rw [after_eq]
  induction accepted output generalizing t with
  | nil => exact h
  | cons s ss ih => exact ih (isSome_record?_putSample test param h s)

end

/-! ## The list of records -/

theorem mem_rows_iff (t : Results) (test : Text) (param : Int) (r : Record) :
    (test, param, r) ∈ t.rows ↔ t.record? test param = some r := by
  simp only [rows, List.mem_flatMap, List.mem_map, Prod.mk.injEq, record?, Option.bind_eq_some_iff]
  constructor
  · rintro ⟨⟨test', params⟩, hp, ⟨param', r'⟩, hr, rfl, rfl, rfl⟩
    exact ⟨params, (OrderedMap.mem_entries_iff ..).1 hp, (OrderedMap.mem_entries_iff ..).1 hr⟩
  · rintro ⟨params, hp, hr⟩
    exact ⟨(test, params), (OrderedMap.mem_entries_iff ..).2 hp, (param, r),
      (OrderedMap.mem_entries_iff ..).2 hr, rfl, rfl, rfl⟩

def KeyBefore (a b : Text × Int) : Prop :=
  compare a.1 b.1 = .lt ∨ a.1 = b.1 ∧ a.2 < b.2

def recordKeys (t : Results) : List (Text × Int) := t.rows.map fun r => (r.1, r.2.1)

theorem mem_recordKeys_iff (t : Results) (test : Text) (param : Int) :
    (test, param) ∈ t.recordKeys ↔ (t.record? test param).isSome := by
  rw [Option.isSome_iff_exists]
  simp only [recordKeys, List.mem_map, Prod.mk.injEq]
  constructor
  · rintro ⟨⟨test', param', r⟩, hr, rfl, rfl⟩
    exact ⟨r, (mem_rows_iff ..).1 hr⟩
  · rintro ⟨r, hr⟩
    exact ⟨(test, param, r), (mem_rows_iff ..).2 hr, rfl, rfl⟩

theorem recordKeys_ascending (t : Results) : t.recordKeys.Pairwise KeyBefore := by
  unfold recordKeys rows
  rw [List.pairwise_map, List.pairwise_flatMap]
  refine ⟨fun e _ => ?_, t.ascending.imp fun {a b} hab => ?_⟩
  · rw [List.pairwise_map]
    exact e.2.ascending.imp fun h => .inr ⟨rfl, Std.compare_eq_lt.1 h⟩
  · intro x hx y hy
    obtain ⟨_, _, rfl⟩ := List.mem_map.1 hx
    obtain ⟨_, _, rfl⟩ := List.mem_map.1 hy
    exact .inl hab

theorem recordKeys_nodup (t : Results) : t.recordKeys.Nodup := by
  refine t.recordKeys_ascending.imp fun {a b} h => ?_
  rintro rfl
  rcases h with h | ⟨_, h⟩
  · simp at h
  · exact Int.lt_irrefl _ h

theorem size_eq_length (t : Results) : t.size = t.recordKeys.length := by
  unfold size recordKeys rows OrderedMap.values
  induction t.entries with
  | nil => rfl
  | cons e r ih =>
    simp only [List.map_cons, List.foldr_cons, List.flatMap_cons, List.map_append, List.length_append,
      List.length_map]
    rw [ih, List.length_map]

/-! ## Tests without records -/

def Filled (t : Results) : Prop := ∀ test params, t.get? test = some params → params.entries ≠ []

theorem filled_empty : empty.Filled := by
  intro test params h; cases h

theorem filled_put {t : Results} (h : t.Filled) (p : Platform) (test : Text) (param : Int)
    (a l : Measurement) :
    (t.put p test param a l).Filled := by
  intro test' params hp
  by_cases ht : test' = test
  · subst ht
    rw [put, OrderedMap.get?_alter_self, Option.some.injEq] at hp
    subst hp
    exact OrderedMap.alterEntries_ne_nil param _ _
  · rw [put, OrderedMap.get?_alter_of_ne _ ht] at hp
    exact h test' params hp

theorem isEmpty_iff {t : Results} (h : t.Filled) : t.isEmpty ↔ t.size = 0 := by
  rw [size_eq_length, isEmpty, List.isEmpty_iff, List.length_eq_zero_iff, recordKeys,
    List.map_eq_nil_iff, rows, List.flatMap_eq_nil_iff]
  constructor
  · intro he e hm; rw [he] at hm; cases hm
  · intro hn
    cases he : t.entries with
    | nil => rfl
    | cons e r =>
      have hm : e ∈ t.entries := by rw [he]; exact List.mem_cons_self ..
      exact absurd (List.map_eq_nil_iff.1 (hn e hm)) (h e.1 e.2 ((OrderedMap.mem_entries_iff ..).1 hm))

end Results

end TriBench
