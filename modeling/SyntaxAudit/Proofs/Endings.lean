import SyntaxAudit.CommandLine.Session
import SyntaxAudit.Proofs.JsonText
import SyntaxAudit.Proofs.ScannedTokens
import SyntaxAudit.Proofs.Trace

/-! How a run ends that could read its source text: the status, and what stands in the two streams
in each of the formats. -/
namespace SyntaxAudit

namespace Text

def Trimmed (text : String) : Prop :=
  ∃ cs c, text.toList = cs ++ [c] ∧ isBlank c = false

theorem Trimmed.ne_empty {text : String} (h : Trimmed text) : text ≠ "" := by
  rintro rfl
  obtain ⟨cs, c, htext, -⟩ := h
  exact absurd htext (by simp)

theorem Trimmed.append_left {text : String} (h : Trimmed text) (before : String) :
    Trimmed (before ++ text) := by
  obtain ⟨cs, c, htext, hc⟩ := h
  exact ⟨before.toList ++ cs, c, by rw [String.toList_append, htext, List.append_assoc], hc⟩

theorem Trimmed.trimEnd_eq {text : String} (h : Trimmed text) : trimEnd text = text := by
  obtain ⟨cs, c, htext, hc⟩ := h
  have hrev : text.toList.reverse = c :: cs.reverse := by
    rw [htext, List.reverse_append, List.reverse_singleton, List.singleton_append]
  rw [trimEnd, hrev, List.dropWhile_cons_of_neg (by simp [hc]), ← hrev, List.reverse_reverse,
    String.ofList_toList]

/-- Lines between which line feeds stand are trimmed if each of them is. -/
theorem trimmed_intercalate {lines : List String} (hne : lines ≠ [])
    (h : ∀ line ∈ lines, Trimmed line) : Trimmed (String.intercalate "\n" lines) := by
  induction lines with
  | nil => exact absurd rfl hne
  | cons line lines ih =>
    cases lines with
    | nil =>
      rw [String.intercalate_singleton]
      exact h line List.mem_cons_self
    | cons next lines =>
      rw [String.intercalate_cons_cons]
      have hrest := ih (List.cons_ne_nil next lines) fun l hl => h l (List.mem_cons_of_mem _ hl)
      exact hrest.append_left (line ++ "\n")

/-- A line feed behind lines with line feeds between them ends the last line as the others. -/
theorem intercalate_lineFeed {lines : List String} (hne : lines ≠ []) :
    String.intercalate "\n" lines ++ "\n" = String.join (lines.map (· ++ "\n")) := by
  induction lines with
  | nil => exact absurd rfl hne
  | cons line lines ih =>
    cases lines with
    | nil =>
      rw [String.intercalate_singleton, List.map_singleton, String.join_cons, String.join_nil,
        String.append_empty]
    | cons next lines =>
      rw [String.intercalate_cons_cons, List.map_cons, String.join_cons,
        ← ih (List.cons_ne_nil next lines)]
      simp only [String.append_assoc]

theorem trimmed_quoted (c : Char) : Trimmed (quoted c) :=
  ⟨['\x27'] ++ escaped c, '\x27', String.toList_ofList, by decide⟩

end Text

namespace LexError

def lines (file : String) (errors : List LexError) : String :=
  String.join (errors.map fun e => file ++ ": " ++ e.message ++ "\n")

theorem Cause.trimmed_description (cause : Cause) : Text.Trimmed cause.description := by
  cases cause with
  | unexpectedCharacter c => exact (Text.trimmed_quoted c).append_left _
  | unterminatedString => exact ⟨"unterminated string litera".toList, 'l', by decide, by decide⟩
  | unterminatedComment => exact ⟨"unterminated block commen".toList, 't', by decide, by decide⟩

theorem trimmed_plainText (file : String) {errors : List LexError} (hne : errors ≠ []) :
    Text.Trimmed (plainText file errors) := by
  refine Text.trimmed_intercalate (by simpa using hne) fun line hline => ?_
  obtain ⟨e, -, rfl⟩ := List.mem_map.mp hline
  exact (e.cause.trimmed_description.append_left _).append_left _

theorem plainText_lineFeed (file : String) {errors : List LexError} (hne : errors ≠ []) :
    plainText file errors ++ "\n" = lines file errors := by
  rw [plainText, Text.intercalate_lineFeed (by simpa using hne), List.map_map]
  rfl

theorem lines_ne_empty (file : String) {errors : List LexError} (hne : errors ≠ []) :
    lines file errors ≠ "" := by
  rw [← plainText_lineFeed file hne]
  simp

end LexError

def resultDocument (file : String) : Except (List LexError) Outcome → Document
  | .ok outcome => outcome.document file
  | .error errors => LexError.document file errors

/-- The count of a check is zero just when it recorded nothing. -/
theorem isClean_checkTokens (policy : TerminatorPolicy) (tokens : List Token) :
    (checkTokens policy tokens).isClean = true ↔ (checkTokens policy tokens).violations = [] := by
  rw [Outcome.isClean, beq_iff_eq, errorCount_checkTokens, violations_checkTokens,
    List.map_eq_nil_iff, List.length_eq_zero_iff]

def CheckOptions.status (options : CheckOptions) : Except (List LexError) Outcome → Nat
  | .error _ => 1
  | .ok outcome => options.exitCode outcome

theorem CheckOptions.exitCode_eq_one_iff {options : CheckOptions} {outcome : Outcome} :
    options.exitCode outcome = 1 ↔ options.denyErrors = true ∧ outcome.isClean = false := by
  simp [CheckOptions.exitCode]

theorem status_checkSource_eq_one_iff (options : CheckOptions) (text : String) :
    options.status (checkSource options text) = 1 ↔
      (∃ errors, scan options.scan text = .error errors) ∨
        options.denyErrors = true ∧
          ∃ outcome, checkSource options text = .ok outcome ∧ outcome.violations ≠ [] := by
  cases hscan : scan options.scan text with
  | error errors => simp [checkSource_of_scan_error hscan, CheckOptions.status]
  | ok tokens =>
    have hclean := isClean_checkTokens options.terminator tokens
    simp [checkSource_of_scan hscan, CheckOptions.status, CheckOptions.exitCode_eq_one_iff,
      ← hclean]

namespace CommandLine.Ending

/-- Some lexical errors as the message of a failure: a line for each of them. -/
theorem failure_plainText (output name : String) {errors : List LexError} (hne : errors ≠ []) :
    failure output (LexError.plainText name errors) =
      ⟨1, output, LexError.lines name errors⟩ := by
  have hmessage := (LexError.trimmed_plainText name hne).ne_empty
  rw [← LexError.plainText_lineFeed name hne]
  simp [failure, hmessage]

/-- A text with lexical errors: a document in JSON, and otherwise a message only. -/
theorem ofCheck_error {options : CheckOptions} {text : String} {errors : List LexError}
    (h : checkSource options text = .error errors) (p : Painter) (name : String) :
    ofCheck p options name text =
      match options.format with
      | .json => ⟨1, (LexError.document name errors).render ++ "\n", ""⟩
      | format => failure "" (Text.trimEnd (format.lexErrorText p name text errors)) := by
  unfold ofCheck
  rw [h]
  cases options.format <;> rfl

theorem ofCheck_ok {options : CheckOptions} {text : String} {outcome : Outcome}
    (h : checkSource options text = .ok outcome) (p : Painter) (name : String) :
    ofCheck p options name text =
      match options.format with
      | .json => ⟨options.exitCode outcome, (outcome.document name).render ++ "\n", ""⟩
      | format =>
        ⟨options.exitCode outcome, outcome.summary ++ "\n", format.outcomeText p name text outcome⟩
    := by
  unfold ofCheck
  rw [h]
  cases options.format <;> rfl

/-- The status of a check, the same in every format. -/
theorem exitCode_ofCheck (p : Painter) (options : CheckOptions) (name text : String) :
    (ofCheck p options name text).exitCode = options.status (checkSource options text) := by
  cases h : checkSource options text with
  | error errors =>
    rw [ofCheck_error h]
    cases options.format <;> rfl
  | ok outcome =>
    rw [ofCheck_ok h]
    cases options.format <;> rfl

/-- The plain report of lexical errors loses nothing when its end is trimmed. -/
theorem ofCheck_plain_error {options : CheckOptions} {text : String} {errors : List LexError}
    (hformat : options.format = .plain) (h : scan options.scan text = .error errors)
    (p : Painter) (name : String) :
    ofCheck p options name text = ⟨1, "", LexError.lines name errors⟩ := by
  have hne := (collect_eq_error_iff.mp h).2
  rw [ofCheck_error (checkSource_of_scan_error h), hformat]
  simp only [ReportFormat.lexErrorText]
  rw [(LexError.trimmed_plainText name hne).trimEnd_eq, failure_plainText "" name hne]

theorem ofListing_error {text : String} {errors : List LexError}
    (h : scan {} text = .error errors) (name : String) :
    ofListing name text = ⟨1, "", LexError.lines name errors⟩ := by
  unfold ofListing
  rw [h]
  exact failure_plainText "" name (collect_eq_error_iff.mp h).2

end CommandLine.Ending

open CommandLine in
/-- How the check of a text ends. The status is one if the text has lexical errors, or if violations
are denied and there are some, whatever the format. In JSON the output is one document, which tells
the result, and a line feed, and there are no errors; in the other formats the output is a line with
the number of violations unless the scan fails. Where it fails, a plain check and a listing end
alike, whatever the settings: with a line for each lexical error. -/
theorem check_ends_by_format (p : Painter) (source : InputSource) (options : CheckOptions)
    (text : String) :
    (((Task.check source options).finish p (.ok text)).exitCode = 1 ↔
      (∃ errors, scan options.scan text = .error errors) ∨
        options.denyErrors = true ∧
          ∃ outcome, checkSource options text = .ok outcome ∧ outcome.violations ≠ []) ∧
    (∀ format, ((Task.check source (options.withFormat format)).finish p (.ok text)).exitCode =
      ((Task.check source options).finish p (.ok text)).exitCode) ∧
    (options.format = .json →
      ((Task.check source options).finish p (.ok text)).errors = "" ∧
      ∃ json : String,
        Json.Written (.value (resultDocument source.name (checkSource options text))) json.toList ∧
        ((Task.check source options).finish p (.ok text)).output = json ++ "\n") ∧
    (options.format ≠ .json →
      (∀ outcome, checkSource options text = .ok outcome →
        ((Task.check source options).finish p (.ok text)).output =
          "Parsing completed with " ++ outcome.errorCount.repr ++ " errors" ++ "\n") ∧
      ∀ errors, scan options.scan text = .error errors →
        ((Task.check source options).finish p (.ok text)).output = "") ∧
    (∀ errors, scan options.scan text = .error errors →
      LexError.lines source.name errors ≠ "" ∧
      (Task.list source).finish p (.ok text) = ⟨1, "", LexError.lines source.name errors⟩ ∧
      ∀ other : CheckOptions, other.format = .plain →
        (Task.check source other).finish p (.ok text) =
          ⟨1, "", LexError.lines source.name errors⟩) := by
  simp only [Task.finish]
  refine ⟨?_, ?_, ?_, ?_, ?_⟩
  · rw [Ending.exitCode_ofCheck, status_checkSource_eq_one_iff]
  · intro format
    rw [Ending.exitCode_ofCheck, Ending.exitCode_ofCheck]
    rfl
  · intro hformat
    cases h : checkSource options text with
    | error errors =>
      rw [Ending.ofCheck_error h, hformat]
      exact ⟨rfl, _, Json.written_render _, rfl⟩
    | ok outcome =>
      rw [Ending.ofCheck_ok h, hformat]
      exact ⟨rfl, _, Json.written_render _, rfl⟩
  · intro hformat
    constructor
    · intro outcome h
      rw [Ending.ofCheck_ok h]
      split
      · contradiction
      · rfl
    · intro errors h
      rw [Ending.ofCheck_error (checkSource_of_scan_error h)]
      split
      · contradiction
      · rfl
  · intro errors h
    have hne := (collect_eq_error_iff.mp h).2
    refine ⟨LexError.lines_ne_empty _ hne, ?_, ?_⟩
    · exact Ending.ofListing_error ((scan_error_iff _ _).mp h) _
    · intro other hplain
      exact Ending.ofCheck_plain_error hplain ((scan_error_iff _ _).mp h) p _

/-- A text with a character that begins no token, behind a comment and before an open string. -/
def unscannable : String :=
  "/* ok */ a @ \x22"

def unended : String :=
  "let x = 1"

def unendedTokens : List Token :=
  [⟨.keyword, "let", ⟨1, 1⟩⟩, ⟨.identifier, "x", ⟨1, 5⟩⟩, ⟨.operator, "=", ⟨1, 7⟩⟩,
    ⟨.number, "1", ⟨1, 9⟩⟩, ⟨.endOfInput, "", ⟨1, 10⟩⟩]

theorem checkSource_unended {options : CheckOptions} (hscan : options.scan = {})
    (hpolicy : options.terminator = .anyPunctuation) :
    checkSource options unended = .ok ⟨[⟨.expectedSemicolon, ⟨1, 10⟩⟩], 1, 4, 5⟩ := by
  have hitems : items {} unended = unendedTokens.map .token := by decide +kernel
  have houtcome : checkTokens .anyPunctuation unendedTokens =
      ⟨[⟨.expectedSemicolon, ⟨1, 10⟩⟩], 1, 4, 5⟩ := by
    rw [checkTokens_eq_trace]
    decide
  rw [checkSource, hscan, hpolicy, scan, hitems, ← houtcome]
  rfl

open CommandLine in
theorem check_ends_unscannable_unended :
    scan { keepComments := true } unscannable =
      .error [⟨.unexpectedCharacter '@', ⟨1, 12⟩⟩, ⟨.unterminatedString, ⟨1, 14⟩⟩] ∧
    (∀ p : Painter, (Task.list (.file "b.script")).finish p (.ok unscannable) =
      ⟨1, "", "b.script: Lexical Error at line 1, column 12: unexpected character '@'\n"
        ++ "b.script: Lexical Error at line 1, column 14: unterminated string literal\n"⟩) ∧
    -- a text that scans, in plain lines and with violations allowed
    (∀ p : Painter,
      ((Task.check (.file "a.script") {}).finish p (.ok unended)).output =
        "Parsing completed with 1 errors\n" ∧
      ((Task.check (.file "a.script") {}).finish p (.ok unended)).exitCode ≠ 1) ∧
    -- and in JSON with violations denied
    ∀ p : Painter,
      ((Task.check (.file "a.script") { format := .json, denyErrors := true }).finish p
        (.ok unended)).exitCode = 1 ∧
      ((Task.check (.file "a.script") { format := .json, denyErrors := true }).finish p
        (.ok unended)).errors = "" ∧
      ∃ json : String,
        Json.Written (.value (.record [("error_count", .number 1),
          ("errors", .list [.finding ⟨1, 10⟩ "Expected semicolon"
            "syntax::expected_semicolon"]),
          ("file", .text "a.script")])) json.toList ∧
        ((Task.check (.file "a.script") { format := .json, denyErrors := true }).finish p
          (.ok unended)).output = json ++ "\n" := by
  have hscan : scan { keepComments := true } unscannable =
      .error [⟨.unexpectedCharacter '@', ⟨1, 12⟩⟩, ⟨.unterminatedString, ⟨1, 14⟩⟩] :=
    collect_eq_error_iff.mpr ⟨by decide +kernel, List.cons_ne_nil _ _⟩
  have hplain := @checkSource_unended {} rfl rfl
  have hjson := @checkSource_unended { format := .json, denyErrors := true } rfl rfl
  refine ⟨hscan, fun p => ?_, fun p => ?_, fun p => ?_⟩
  · exact ((check_ends_by_format p (.file "b.script") { scan := { keepComments := true } }
      unscannable).2.2.2.2 _ hscan).2.1.trans (by decide +kernel)
  · obtain ⟨hstatus, -, -, houtput, -⟩ := check_ends_by_format p (.file "a.script") {} unended
    refine ⟨((houtput (by decide)).1 _ hplain).trans (by decide), fun hone => ?_⟩
    rcases hstatus.mp hone with ⟨errors, herror⟩ | ⟨hdeny, -⟩
    · rw [checkSource_of_scan_error herror] at hplain
      cases hplain
    · cases hdeny
  · obtain ⟨hstatus, -, hdocument, -⟩ := check_ends_by_format p (.file "a.script")
      { format := .json, denyErrors := true } unended
    rw [hjson] at hdocument
    exact ⟨hstatus.mpr (.inr ⟨rfl, _, hjson, List.cons_ne_nil _ _⟩), hdocument rfl⟩

end SyntaxAudit
