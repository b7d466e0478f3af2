import TriBench.Proofs.Tally.Counters
import TriBench.Proofs.Text.Lines

/-!
# The output of failed commands

What a failed command has written is shown below its failure when it is asked for: the lines of the
standard error, and then those of the standard output. Main statements: `lines_diagnostics`, no line
is lost or made up where the two meet, and `text_with_output`.
-/

namespace TriBench

def outputLines (bytes : Bytes) : List Text := Text.lines (Text.trimEnd (Utf8.decode bytes))

theorem lined_outputLines (bytes : Bytes) :
    Text.Lined (Text.trimEnd (Utf8.decode bytes)) (outputLines bytes) :=
  Text.lined_lines _

example : outputLines (Text.toBytes "a \n\r\n b\r\n \n") = [['a', ' '], [], [' ', 'b']] := by decide +kernel

theorem outputLines_eq_nil_iff {bytes : Bytes} :
    outputLines bytes = [] ↔ ∀ c ∈ Utf8.decode bytes, Text.isBlank c = true := by
  constructor
  · intro h
    obtain ⟨after, hbytes, hblank⟩ := Text.exists_trimEnd (Utf8.decode bytes)
    have hlined := lined_outputLines bytes
    rw [h] at hlined
    generalize Text.trimEnd (Utf8.decode bytes) = s at hlined hbytes
    cases hlined
    rw [hbytes]
    exact hblank
  · intro h
    have htrim := Text.trimEnd_append [] h
    rw [List.nil_append] at htrim
    unfold outputLines
    rw [htrim]
    rfl

namespace ToolFailure

def outputLines : ToolFailure → List Text
  | exit _ _ output => TriBench.outputLines output.stderr ++ TriBench.outputLines output.stdout
  | _ => []

/-- The lines of the joined streams are the lines of one stream and then those of the other, also if
one is blank. -/
theorem lines_diagnostics (f : ToolFailure) : Text.lines (f.diagnostics.getD []) = f.outputLines := by
  cases f with
  | exit program code output =>
    let streams := [output.stderr, output.stdout].map (Text.trimEnd ∘ Utf8.decode)
    have hdiagnostics : (exit program code output).diagnostics.getD [] =
        Text.joinWith ['\n'] (streams.filter (· ≠ [])) := by
      rw [diagnostics]
      split
      · rename_i h
        exact (congrArg (Text.joinWith ['\n']) h).symm
      · rfl
    have hends : ∀ t ∈ streams.filter (· ≠ []), ∃ c, t.getLast? = some c ∧ c ≠ '\n' ∧ c ≠ '\r' := by
      intro t ht
      obtain ⟨ht, hne⟩ := List.mem_filter.1 ht
      obtain ⟨bytes, -, rfl⟩ := List.mem_map.1 ht
      exact Text.exists_getLast?_trimEnd (by simpa using hne)
    rw [hdiagnostics, Text.lines_joinWith hends, Text.flatMap_lines_filter]
    simp [streams, outputLines, TriBench.outputLines]
  | _ => rfl

end ToolFailure

def Failure.outputLines (f : Failure) : List Text := f.tool?.elim [] ToolFailure.outputLines

theorem Failure.lines_diagnostics (f : Failure) : Text.lines (f.diagnostics.getD []) = f.outputLines := by
  unfold diagnostics outputLines
  cases f.tool? with
  | none => rfl
  | some cause => exact cause.lines_diagnostics

namespace Element

variable (colours : Bool)

def headline (e : Element) : Text :=
  Style.paintFilled colours (.plain e.outcome.label.2) (Text.padLeft labelWidth) e.outcome.label.1 ++
    ' ' :: e.name ++ ' ' :: details colours e.outcome

def indented (line : Text) : Text :=
  '\n' :: List.replicate 13 ' ' ++ Style.paint colours (.plain .brightBlack) line

theorem failureText_verbose (f : Failure) :
    failureText colours true f = failureText colours false f ++ f.outputLines.flatMap (indented colours) := by
  unfold failureText
  rw [f.lines_diagnostics, if_pos rfl, if_neg Bool.false_ne_true, List.append_nil]
  rfl

theorem text_eq (verbose : Bool) (e : Element) :
    e.text colours verbose =
      if e.outcome.grade = .measured ∧ verbose = false then none
      else some (e.headline colours ++ e.outcome.failures.flatMap (failureText colours verbose)) := by
  unfold text headline
  cases e.outcome <;> cases verbose <;> rfl

/-- **The output is shown on request, in full, and nothing else with it.** -/
theorem text_with_output (e : Element) :
    (e.text colours false =
      if e.outcome.grade = .measured then none
      else some (e.headline colours ++ e.outcome.failures.flatMap fun f => failureText colours false f)) ∧
    e.text colours true =
      some (e.headline colours ++ e.outcome.failures.flatMap fun f =>
        failureText colours false f ++ f.outputLines.flatMap (indented colours)) ∧
    ∀ bytes, Text.Lined (Text.trimEnd (Utf8.decode bytes)) (outputLines bytes) ∧
      (outputLines bytes = [] ↔ ∀ c ∈ Utf8.decode bytes, Text.isBlank c = true) := by
  refine ⟨?_, ?_, fun bytes => ⟨lined_outputLines bytes, outputLines_eq_nil_iff⟩⟩
  · rw [text_eq]
    simp only [and_true]
  · rw [text_eq, if_neg (by simp)]
    have hfailures : failureText colours true =
        fun f => failureText colours false f ++ f.outputLines.flatMap (indented colours) :=
      funext (failureText_verbose colours)
    rw [hfailures]

end Element

end TriBench
