import Mathlib.Data.List.Nodup
import TriBench.Arguments
import TriBench.Proofs.Text.Decimal

/-!
# Spelling arguments out

Arguments are spelled out with their options in any order among the prefixes; a prefix that begins
with a dash stands after two dashes. Main statement: `parse_spelled`, whatever is spelled out is
read back.
-/

namespace TriBench

/-! ## Options in writing -/

def ValueOption.name : ValueOption → Text
  | out => "out"
  | config => "config"
  | timeout => "timeout"

def ValueOption.spelled (o : ValueOption) (v : Text) : Text := "--" ++ o.name ++ '=' :: v

def SwitchOption.name : SwitchOption → Text
  | verbose => "verbose"
  | quiet => "quiet"
  | help => "help"

def SwitchOption.letter : SwitchOption → Char
  | verbose => 'v'
  | quiet => 'q'
  | help => 'h'

def SwitchOption.spelled (o : SwitchOption) (long : Bool) : Text :=
  if long then "--" ++ o.name else ['-', o.letter]

theorem ValueOption.getElem?_spelled (o : ValueOption) (v : Text) : (o.spelled v)[2]? = o.name.head? := by
  cases o <;> rfl

theorem SwitchOption.getElem?_spelled (o : SwitchOption) (l : Bool) :
    (o.spelled l)[2]? = if l then o.name.head? else none := by
  cases o <;> cases l <;> rfl

@[simp] theorem ValueOption.spelled_inj {o o' : ValueOption} {v v' : Text} :
    o.spelled v = o'.spelled v' ↔ o = o' ∧ v = v' := by
  constructor
  · intro h
    have hinitial : o.name.head? = o'.name.head? := by
      rw [← getElem?_spelled o v, ← getElem?_spelled o' v', h]
    have ho : o = o' := by
      revert hinitial
      cases o <;> cases o' <;> decide
    subst ho
    exact ⟨rfl, (List.cons.inj (List.append_cancel_left h)).2⟩
  · intro h
    rw [h.1, h.2]

@[simp] theorem SwitchOption.spelled_inj {o o' : SwitchOption} {l l' : Bool} :
    o.spelled l = o'.spelled l' ↔ o = o' ∧ l = l' := by
  cases o <;> cases o' <;> cases l <;> cases l' <;> decide

/-- The initials of options with values are not those of switches. -/
@[simp] theorem spelled_ne_spelled {o : ValueOption} {o' : SwitchOption} {v : Text} {l : Bool} :
    o.spelled v ≠ o'.spelled l := by
  intro h
  have hinitial : o.name.head? = if l then o'.name.head? else none := by
    rw [← o.getElem?_spelled v, h, o'.getElem?_spelled]
  revert hinitial
  cases o <;> cases o' <;> cases l <;> decide

@[simp] theorem switch_ne_spelled {o : ValueOption} {o' : SwitchOption} {v : Text} {l : Bool} :
    o'.spelled l ≠ o.spelled v :=
  spelled_ne_spelled.symm

namespace Arguments

def isDashed (t : Text) : Bool := t.head? = some '-'

@[simp] theorem isDashed_value (o : ValueOption) (v : Text) : isDashed (o.spelled v) = true := by
  cases o <;> rfl

@[simp] theorem isDashed_switch (o : SwitchOption) (l : Bool) : isDashed (o.spelled l) = true := by
  cases o <;> cases l <;> rfl

section
variable (a : Arguments) (long : SwitchOption → Bool)

def value? : ValueOption → Option Text
  | .out => a.out.map Path.text
  | .config => a.config.map Path.text
  | .timeout => a.timeout.map Text.ofNat

def isOn : SwitchOption → Bool
  | .verbose => a.verbose
  | .quiet => a.quiet
  | .help => false

/-- All options that are given; `long` tells which switches are spelled with their names. -/
def options : List Text :=
  [ValueOption.out, .config, .timeout].filterMap (fun o => (a.value? o).map o.spelled) ++
    ([SwitchOption.verbose, .quiet].filter a.isOn).map fun o => o.spelled (long o)

variable {a long}

theorem mem_options_iff {t : Text} :
    t ∈ a.options long ↔
      (∃ o v, a.value? o = some v ∧ t = o.spelled v) ∨ ∃ o, a.isOn o = true ∧ t = o.spelled (long o) := by
  have hvalue : ∀ o : ValueOption, o ∈ [ValueOption.out, .config, .timeout] := by
    intro o
    cases o <;> decide
  have hswitch : ∀ o, a.isOn o = true → o ∈ [SwitchOption.verbose, .quiet] := by
    intro o ho
    cases o with
    | help => cases ho
    | _ => decide
  simp only [options, List.mem_append, List.mem_filterMap, List.mem_map, List.mem_filter,
    Option.map_eq_some_iff]
  constructor
  · intro h
    cases h with
    | inl h =>
      obtain ⟨o, -, v, hv, rfl⟩ := h
      exact .inl ⟨o, v, hv, rfl⟩
    | inr h =>
      obtain ⟨o, ⟨-, ho⟩, rfl⟩ := h
      exact .inr ⟨o, ho, rfl⟩
  · intro h
    cases h with
    | inl h =>
      obtain ⟨o, v, hv, rfl⟩ := h
      exact .inl ⟨o, hvalue o, v, hv, rfl⟩
    | inr h =>
      obtain ⟨o, ho, rfl⟩ := h
      exact .inr ⟨o, ⟨hswitch o ho, ho⟩, rfl⟩

theorem nodup_options : (a.options long).Nodup := by
  have hvalues : ([ValueOption.out, .config, .timeout].filterMap fun o =>
      (a.value? o).map o.spelled).Nodup := by
    refine List.Nodup.filterMap ?_ (by decide)
    intro o o' t ht ht'
    obtain ⟨v, -, rfl⟩ := Option.map_eq_some_iff.1 ht
    obtain ⟨v', -, h⟩ := Option.map_eq_some_iff.1 ht'
    exact (ValueOption.spelled_inj.1 h).1.symm
  have hswitches : (([SwitchOption.verbose, .quiet].filter a.isOn).map fun o =>
      o.spelled (long o)).Nodup := by
    refine List.Nodup.map ?_ (List.Nodup.filter _ (by decide))
    intro o o' h
    exact (SwitchOption.spelled_inj.1 h).1
  refine hvalues.append hswitches ?_
  intro t ht ht'
  obtain ⟨o, -, ho⟩ := List.mem_filterMap.1 ht
  obtain ⟨v, -, rfl⟩ := Option.map_eq_some_iff.1 ho
  obtain ⟨o', -, h⟩ := List.mem_map.1 ht'
  exact spelled_ne_spelled h.symm

/-! ## One argument -/

theorem settleThen_of_ok {b b' : Arguments} {f : Arguments → Except ArgumentError Arguments}
    (h : f b = .ok b') :
    Scan.settleThen { arguments := b } f = .ok { arguments := b' } := by
  change (f b >>= fun a => pure ({ arguments := a } : Scan)) = .ok { arguments := b' }
  rw [h]
  rfl

theorem step_value {b b' : Arguments} {o : ValueOption} {v : Text} (h : b.assign o v = .ok b') :
    Scan.step { arguments := b } (o.spelled v) = .ok { arguments := b' } := by
  have hlong : Scan.step { arguments := b } (o.spelled v) =
      Scan.settleThen { arguments := b } (·.assign o v) := by
    cases o <;> rfl
  rw [hlong, settleThen_of_ok h]

theorem takeShorts_letter {s s' : Scan} {o : SwitchOption} (h : s.settleThen (·.switchOn o) = .ok s') :
    s.takeShorts [o.letter] = .ok s' := by
  have hletter : CommandOption.ofShort? o.letter = some (.switch o) := by cases o <;> rfl
  rw [Scan.takeShorts, hletter]
  dsimp only
  rw [h]
  rfl

theorem step_switch {b b' : Arguments} {o : SwitchOption} {l : Bool} (h : b.switchOn o = .ok b') :
    Scan.step { arguments := b } (o.spelled l) = .ok { arguments := b' } := by
  cases l with
  | true =>
    have hlong : Scan.step { arguments := b } (o.spelled true) =
        Scan.settleThen { arguments := b } (·.switchOn o) := by
      cases o <;> rfl
    rw [hlong, settleThen_of_ok h]
  | false =>
    have hshort : Scan.step { arguments := b } (o.spelled false) =
        Scan.takeShorts { arguments := b } [o.letter] := by
      cases o <;> rfl
    rw [hshort, takeShorts_letter (settleThen_of_ok h)]

theorem step_plain {t : Text} (h : isDashed t = false) (b : Arguments) :
    Scan.step { arguments := b } t = .ok { arguments := { b with prefixes := b.prefixes ++ [t] } } := by
  unfold Scan.step
  rw [if_neg Bool.false_ne_true]
  split
  · cases h
  · cases h
  · cases h
  · rfl

/-! ## Many arguments -/

variable (a long) in
def readFrom (seen : List Text) : Arguments where
  prefixes := seen.filter (!isDashed ·)
  out := a.out.filter fun p => ValueOption.out.spelled p.text ∈ seen
  config := a.config.filter fun p => ValueOption.config.spelled p.text ∈ seen
  timeout := a.timeout.filter fun n => ValueOption.timeout.spelled (Text.ofNat n) ∈ seen
  verbose := a.verbose && SwitchOption.verbose.spelled (long .verbose) ∈ seen
  quiet := a.quiet && SwitchOption.quiet.spelled (long .quiet) ∈ seen

structure Spellable (a : Arguments) : Prop where
  out : ∀ p ∈ a.out, p.text ≠ []
  config : ∀ p ∈ a.config, p.text ≠ []
  timeout : ∀ n ∈ a.timeout, n ≤ Text.maxUInt64

theorem assign_readFrom (ha : a.Spellable) {o : ValueOption} {v : Text} {seen : List Text}
    (hv : a.value? o = some v) (hnew : o.spelled v ∉ seen) :
    (a.readFrom long seen).assign o v = .ok (a.readFrom long (seen ++ [o.spelled v])) := by
  cases o with
  | out =>
    obtain ⟨p, hp, rfl⟩ := Option.map_eq_some_iff.1 hv
    have hne := ha.out p hp
    simp [assign, readFrom, pathValue, hp, hnew, hne, Except.map, Option.filter_some]
  | config =>
    obtain ⟨p, hp, rfl⟩ := Option.map_eq_some_iff.1 hv
    have hne := ha.config p hp
    simp [assign, readFrom, pathValue, hp, hnew, hne, Except.map, Option.filter_some]
  | timeout =>
    obtain ⟨n, hn, rfl⟩ := Option.map_eq_some_iff.1 hv
    have hnumber := Text.uint64?_ofNat (ha.timeout n hn)
    simp [assign, readFrom, numberValue, hn, hnew, hnumber, Except.map, Option.filter_some]

theorem switchOn_readFrom {o : SwitchOption} {seen : List Text} (ho : a.isOn o = true)
    (hnew : o.spelled (long o) ∉ seen) :
    (a.readFrom long seen).switchOn o = .ok (a.readFrom long (seen ++ [o.spelled (long o)])) := by
  cases o with
  | verbose =>
    have hon : a.verbose = true := ho
    simp [switchOn, readFrom, hon, hnew]
  | quiet =>
    have hon : a.quiet = true := ho
    simp [switchOn, readFrom, hon, hnew]
  | help => cases ho

theorem readFrom_concat {t : Text} (h : isDashed t = false) (seen : List Text) :
    a.readFrom long (seen ++ [t]) =
      { a.readFrom long seen with prefixes := (a.readFrom long seen).prefixes ++ [t] } := by
  have hvalue : ∀ (o : ValueOption) v, o.spelled v ≠ t := by
    intro o v ht
    rw [← ht, isDashed_value] at h
    cases h
  have hswitch : ∀ (o : SwitchOption) l, o.spelled l ≠ t := by
    intro o l ht
    rw [← ht, isDashed_switch] at h
    cases h
  simp [readFrom, h, hvalue, hswitch]

/-- An argument that is an option not given before, or a prefix without a dash. -/
theorem step_readFrom (ha : a.Spellable) {t : Text} {seen : List Text}
    (hoption : isDashed t = true → t ∈ a.options long ∧ t ∉ seen) :
    Scan.step { arguments := a.readFrom long seen } t =
      .ok { arguments := a.readFrom long (seen ++ [t]) } := by
  cases ht : isDashed t with
  | true =>
    obtain ⟨hmem, hnew⟩ := hoption ht
    rcases mem_options_iff.1 hmem with ⟨o, v, hv, rfl⟩ | ⟨o, ho, rfl⟩
    · exact step_value (assign_readFrom ha hv hnew)
    · exact step_switch (switchOn_readFrom ho hnew)
  | false =>
    rw [readFrom_concat ht]
    exact step_plain ht _

theorem scan_readFrom (ha : a.Spellable) {seen ts : List Text}
    (hmem : ∀ t ∈ ts.filter isDashed, t ∈ a.options long) (hnodup : ((seen ++ ts).filter isDashed).Nodup) :
    scan { arguments := a.readFrom long seen } ts = .ok { arguments := a.readFrom long (seen ++ ts) } := by
  -- nothing is pending between the arguments, and what has been read is what `seen` gives
  induction ts generalizing seen with
  | nil => rw [List.append_nil, scan]
  | cons t ts ih =>
    have hstep : Scan.step { arguments := a.readFrom long seen } t =
        .ok { arguments := a.readFrom long (seen ++ [t]) } := by
      refine step_readFrom ha fun ht => ⟨hmem t ?_, ?_⟩
      · rw [List.mem_filter]
        exact ⟨List.mem_cons_self .., ht⟩
      · intro hseen
        rw [List.filter_append, List.filter_cons_of_pos ht] at hnodup
        exact (List.nodup_append.1 hnodup).2.2 t (List.mem_filter.2 ⟨hseen, ht⟩) t (List.mem_cons_self ..) rfl
    rw [List.append_cons] at hnodup ⊢
    rw [scan, hstep]
    refine ih (fun t' ht' => hmem t' ?_) hnodup
    rw [List.mem_filter] at ht' ⊢
    exact ⟨List.mem_cons_of_mem t ht'.1, ht'.2⟩

theorem filter_eq_self {α : Type} {x : Option α} {q : α → Bool} (h : ∀ v ∈ x, q v = true) :
    x.filter q = x := by
  cases x with
  | none => rfl
  | some v => rw [Option.filter_some, if_pos (h v rfl)]

/-- When all options have been seen, all of the arguments but some prefixes has been read. -/
theorem readFrom_eq {body : List Text} (h : ∀ t ∈ a.options long, t ∈ body) :
    a.readFrom long body = { a with prefixes := body.filter (!isDashed ·) } := by
  have hvalue : ∀ o v, a.value? o = some v → decide (o.spelled v ∈ body) = true := by
    intro o v hv
    exact decide_eq_true (h _ (mem_options_iff.2 (.inl ⟨o, v, hv, rfl⟩)))
  have hswitch : ∀ o, a.isOn o = true → decide (o.spelled (long o) ∈ body) = true := by
    intro o ho
    exact decide_eq_true (h _ (mem_options_iff.2 (.inr ⟨o, ho, rfl⟩)))
  have hout : a.out.filter (fun p => ValueOption.out.spelled p.text ∈ body) = a.out :=
    filter_eq_self fun p hp => hvalue .out p.text (Option.map_eq_some_iff.2 ⟨p, hp, rfl⟩)
  have hconfig : a.config.filter (fun p => ValueOption.config.spelled p.text ∈ body) = a.config :=
    filter_eq_self fun p hp => hvalue .config p.text (Option.map_eq_some_iff.2 ⟨p, hp, rfl⟩)
  have htimeout : a.timeout.filter (fun n => ValueOption.timeout.spelled (Text.ofNat n) ∈ body) = a.timeout :=
    filter_eq_self fun n hn => hvalue .timeout (Text.ofNat n) (Option.map_eq_some_iff.2 ⟨n, hn, rfl⟩)
  have hverbose : (a.verbose && SwitchOption.verbose.spelled (long .verbose) ∈ body) = a.verbose :=
    Bool.and_eq_left_iff_imp.2 (hswitch .verbose)
  have hquiet : (a.quiet && SwitchOption.quiet.spelled (long .quiet) ∈ body) = a.quiet :=
    Bool.and_eq_left_iff_imp.2 (hswitch .quiet)
  rw [readFrom, hout, hconfig, htimeout, hverbose, hquiet]

theorem scan_append (s : Scan) (xs ys : List Text) :
    scan s (xs ++ ys) = (scan s xs >>= fun s' => scan s' ys) := by
  induction xs generalizing s with
  | nil => rfl
  | cons t ts ih =>
    rw [List.cons_append, scan, scan]
    cases s.step t with
    | error e => rfl
    | ok s' => exact ih s'

theorem scan_escaped (b : Arguments) (ts : List Text) :
    scan { arguments := b, escaped := true } ts =
      .ok { arguments := { b with prefixes := b.prefixes ++ ts }, escaped := true } := by
  induction ts generalizing b with
  | nil => rw [List.append_nil, scan]
  | cons t ts ih =>
    have hstep : Scan.step { arguments := b, escaped := true } t =
      .ok { arguments := { b with prefixes := b.prefixes ++ [t] }, escaped := true } := rfl
    have htail := ih { b with prefixes := b.prefixes ++ [t] }
    dsimp only at htail
    rw [List.append_assoc] at htail
    rw [scan, hstep]
    exact htail

theorem scan_dashes (b : Arguments) (ts : List Text) :
    scan { arguments := b } (['-', '-'] :: ts) =
      .ok { arguments := { b with prefixes := b.prefixes ++ ts }, escaped := true } := by
  have hstep : Scan.step { arguments := b } ['-', '-'] = .ok { arguments := b, escaped := true } := rfl
  rw [scan, hstep]
  exact scan_escaped b ts

theorem readFrom_nil : a.readFrom long [] = {} := by
  simp [readFrom]

theorem scan_body (ha : a.Spellable) {body : List Text}
    (hoptions : (body.filter isDashed).Perm (a.options long)) :
    scan {} body = .ok { arguments := { a with prefixes := body.filter (!isDashed ·) } } := by
  have hmem : ∀ t ∈ body.filter isDashed, t ∈ a.options long := fun t ht => hoptions.subset ht
  have hnodup : (([] ++ body).filter isDashed).Nodup := hoptions.nodup_iff.2 nodup_options
  have hall : ∀ t ∈ a.options long, t ∈ body := fun t ht => List.mem_of_mem_filter (hoptions.symm.subset ht)
  have hscan := scan_readFrom ha hmem hnodup
  rwa [List.nil_append, readFrom_nil, readFrom_eq hall] at hscan

theorem validate_eq_ok_iff {a' : Arguments} :
    a.validate = .ok a' ↔ a' = a ∧ ¬ (a.verbose = true ∧ a.quiet = true) ∧ a.timeout ≠ some 0 := by
  unfold Arguments.validate
  simp only [Bool.and_eq_true]
  split
  · rename_i hvolume
    exact iff_of_false nofun fun h => h.2.1 hvolume
  · split
    · rename_i hlimit
      exact iff_of_false nofun fun h => h.2.2 hlimit
    · rename_i hvolume hlimit
      rw [Except.ok.injEq, eq_comm]
      exact (and_iff_left ⟨hvolume, hlimit⟩).symm

theorem exists_validate_eq_error_iff :
    (∃ e, a.validate = .error e) ↔ a.verbose = true ∧ a.quiet = true ∨ a.timeout = some 0 := by
  constructor
  · intro h
    obtain ⟨e, he⟩ := h
    by_contra hvalid
    rw [not_or] at hvalid
    have hok : a.validate = .ok a := validate_eq_ok_iff.2 ⟨rfl, hvalid⟩
    rw [he] at hok
    cases hok
  · intro h
    cases hvalidate : a.validate with
    | error e => exact ⟨e, rfl⟩
    | ok a' =>
      obtain ⟨-, hvolume, hlimit⟩ := validate_eq_ok_iff.1 hvalidate
      cases h with
      | inl h => exact absurd h hvolume
      | inr h => exact absurd h hlimit

end

/-! ## All arguments -/

/-- **Arguments are read back.** The options, each spelled in one argument, stand in any order and
anywhere among prefixes without a dash; after two dashes there are any prefixes. -/
theorem parse_spelled {a : Arguments} (ha : a.Spellable) (long : SwitchOption → Bool) {body rest : List Text}
    (hoptions : (body.filter isDashed).Perm (a.options long))
    (hprefixes : a.prefixes = body.filter (!isDashed ·) ++ rest) :
    parse (body ++ ['-', '-'] :: rest) = .ok a ∧ (rest = [] → parse body = .ok a) ∧
      ((∃ e, a.validate = .error e) ↔ a.verbose = true ∧ a.quiet = true ∨ a.timeout = some 0) := by
  have hbody := scan_body ha hoptions
  refine ⟨?_, ?_, ?_⟩
  · have hscan : scan {} (body ++ ['-', '-'] :: rest) = .ok { arguments := a, escaped := true } := by
      rw [scan_append, hbody]
      refine (scan_dashes _ rest).trans ?_
      dsimp only
      rw [← hprefixes]
    rw [parse, hscan]
    rfl
  · intro hrest
    rw [hrest, List.append_nil] at hprefixes
    rw [parse, hbody, ← hprefixes]
    rfl
  · exact exists_validate_eq_error_iff

/-- Values that look like options, prefixes that are empty or look like options, and the longest
time limit. -/
theorem parse_spelled_mixed :
    let a : Arguments :=
      { prefixes := ["fs", "", "--out=x", "--", "-v"], out := some "a=b", verbose := true, quiet := true,
        config := some "--c d", timeout := some 18446744073709551615 }
    let body : List Text :=
      ["-q", "fs", "--timeout=18446744073709551615", "", "--config=--c d", "--verbose", "--out=a=b"]
    let rest : List Text := ["--out=x", "--", "-v"]
    a.Spellable ∧ (body.filter isDashed).Perm (a.options (· = .verbose)) ∧
      a.prefixes = body.filter (!isDashed ·) ++ rest ∧ parse (body ++ ['-', '-'] :: rest) = .ok a ∧
      ∃ e, a.validate = .error e := by
  intro a body rest
  have ha : a.Spellable := ⟨by decide, by decide, by decide⟩
  have hoptions : (body.filter isDashed).Perm (a.options (· = .verbose)) := by decide +kernel
  have hprefixes : a.prefixes = body.filter (!isDashed ·) ++ rest := by decide
  obtain ⟨hparse, -, hvalidate⟩ := parse_spelled ha (· = .verbose) hoptions hprefixes
  exact ⟨ha, hoptions, hprefixes, hparse, hvalidate.2 (.inl ⟨rfl, rfl⟩)⟩

end Arguments

end TriBench
