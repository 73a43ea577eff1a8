import Mathlib.Data.List.Basic
import TxTree.Command.Run
import TxTree.Proofs.Encoding
import TxTree.Proofs.Legibility
import TxTree.Proofs.Wording

set_option relaxedAutoImplicit false
set_option autoImplicit false

/-!
# The views of a file agree

A file is looked at in three ways: whether it is clean, its tokens, and its tree. All of them see
the same text, or that there is none to see. The number of findings is told by the exit code of a
check, by its report in JSON, which is read back, by its summary, and by the lines that are printed
on the side, since a finding takes up one line. The tokens in JSON, white space and comments
included, are read back to the text, and this is the content of the file.

## Main definitions

* `TxTree.Command.Outcome.stdout`, `TxTree.Command.Outcome.stderr` — what is printed.
* `TxTree.Command.views` — the requests for a view of a file.
* `TxTree.Command.ViewsAgree` — what the views of a text have in common.

## Main results

* `TxTree.Command.decode_eq_ok_iff` — a text is decoded from its bytes only.
* `TxTree.Command.run_views` — the views of a file agree.
-/

namespace TxTree

/-! ## Findings -/

lemma errors_eq_diagnostics (text : String) : (parse text).errors = (parse text).diagnostics := by
  refine List.filter_eq_self.2 fun d hd => ?_
  rw [Diagnostic.isError, (isPlaced_of_mem_diagnostics d hd).severity_eq]
  rfl

namespace Command

/-! ## What is printed -/

/-- Texts as they are printed, each with a line end behind it. -/
def printed (texts : List String) : String := String.join (texts.map (· ++ "\n"))

/-- What a command prints as the answer. -/
def Outcome.stdout (o : Outcome) : String := printed o.out

/-- What a command prints on the side. -/
def Outcome.stderr (o : Outcome) : String := printed o.err

lemma printed_singleton (text : String) : printed [text] = text ++ "\n" := by
  simp [printed, String.join]

lemma printed_append (texts texts' : List String) :
    printed (texts ++ texts') = printed texts ++ printed texts' := by
  refine String.toList_inj.1 ?_
  simp [printed, String.toList_join]

/-- Lines are as many as the line ends that are printed. -/
lemma count_printed {lines : List String} (h : ∀ l ∈ lines, '\n' ∉ l.toList) :
    (printed lines).toList.count '\n' = lines.length := by
  have hlines : (printed lines).toList = (lines.map String.toList).flatMap (· ++ ['\n']) := by
    simp [printed, String.toList_join, List.flatMap_map]
  rw [hlines, count_lineEnd_flatMap (List.forall_mem_map.2 h), List.length_map]

/-! ### Lines of findings -/

lemma lineEnd_notMem_paint {color : Bool} {code text : String} (hcode : '\n' ∉ code.toList)
    (htext : '\n' ∉ text.toList) : '\n' ∉ (paint color code text).toList := by
  cases color <;> simp [paint, hcode, htext]

/-- The line of a finding is one line. -/
lemma lineEnd_notMem_diagnosticLine {color : Bool} {path : String} {index : Text.LineIndex}
    {d : Diagnostic} (hpath : '\n' ∉ path.toList) (hmessage : '\n' ∉ d.message.toList) :
    '\n' ∉ (diagnosticLine color path index d).toList := by
  have hdigits (n : Nat) : '\n' ∉ Nat.toDigits 10 n := notMem_toDigits (by decide)
  have hred : '\n' ∉ (red color Severity.error.name).toList :=
    lineEnd_notMem_paint (by simp) (by simp [Severity.name])
  have hyellow : '\n' ∉ (yellow color Severity.warning.name).toList :=
    lineEnd_notMem_paint (by simp) (by simp [Severity.name])
  obtain ⟨span, message, severity⟩ := d
  cases severity with
  | error => simp [diagnosticLine, hpath, hmessage, hdigits, hred]
  | warning => simp [diagnosticLine, hpath, hmessage, hdigits, hyellow]

/-- Each finding takes up one line. -/
lemma count_diagnosticLines (color : Bool) {path : String} (hpath : '\n' ∉ path.toList)
    (source : String) :
    (printed (diagnosticLines color path source (parse source))).toList.count '\n' =
      (parse source).diagnostics.length := by
  rw [count_printed, diagnosticLines, List.length_map]
  intro l hl
  obtain ⟨d, hd, rfl⟩ := List.mem_map.1 hl
  exact lineEnd_notMem_diagnosticLine hpath (lineEnd_notMem_message source d hd)

/-! ## What is read -/

/-- **A text is decoded from its bytes only.** -/
theorem decode_eq_ok_iff {bytes : ByteArray} {text : String} :
    decode bytes = .ok text ↔ text.toUTF8 = bytes := by
  have hread : String.fromUTF8? bytes = some text ↔ text.toUTF8 = bytes := by
    unfold String.fromUTF8?
    constructor
    · intro h
      split at h
      · obtain rfl := Option.some_inj.1 h
        rfl
      · cases h
    · rintro rfl
      exact dif_pos text.isValidUTF8
  rw [← hread, decode]
  cases String.fromUTF8? bytes <;> simp

/-! ## Reports in JSON -/

lemma isPlain_checkReport (path : String) (p : Parse) : (checkReport path p).isPlain = true := by
  have hfindings : (p.diagnostics.map Diagnostic.toJson).all Json.isPlain = true := by
    simp only [List.all_map, List.all_eq_true, Function.comp_apply]
    exact fun _ _ => rfl
  rw [checkReport, Json.isPlain_sortKeys]
  simpa [Json.isPlain, Json.membersArePlain, Json.itemsArePlain_eq_all] using hfindings

lemma isPlain_tokens (ts : List Token) : (Json.array (ts.map Token.toJson)).isPlain = true := by
  rw [Json.isPlain, Json.itemsArePlain_eq_all]
  simp only [List.all_map, List.all_eq_true, Function.comp_apply]
  exact fun _ _ => rfl

/-- A member is found wherever the order of the keys has put it. -/
lemma member?_mergeSort (members : List (String × Json)) (key : String) :
    Json.member? (members.mergeSort fun a b => a.1 ≤ b.1) key = Json.member? members key :=
  Json.member?_congr ((List.mergeSort_perm members _).filter _)

lemma length_sortKeysOfItems (items : List Json) :
    (Json.sortKeysOfItems items).length = items.length := by
  induction items with
  | nil => rfl
  | cons v items ih => rw [Json.sortKeysOfItems, List.length_cons, List.length_cons, ih]

/-- The text of a token that is read. -/
def tokenText? : Json → Option String
  | .object members => (Json.member? members "text").bind Json.toText?
  | _ => none

/-! ## The views -/

/-- The requests for a view of a file. -/
def views (path : String) (json trivia : Bool) : List Request :=
  [.check path json, .tokens path json trivia, .tree path json]

/-- What a plain check prints behind its findings, if there are any. -/
def summary (color : Bool) (path : String) (n : Nat) : String :=
  if n = 0 then ""
  else red color "✗" ++ " " ++ toString n ++ " syntax error(s) in " ++ path ++ "\n"

/-- **The views of a text agree**, `view` being what comes of a request, with or without `--quiet`.
The number of findings is that of the parse. -/
structure ViewsAgree (color : Bool) (path source : String) (view : Bool → Request → Outcome) :
    Prop where
  /-- The tokens can be listed. -/
  code_tokens : ∀ quiet json trivia, (view quiet (.tokens path json trivia)).code = 0
  /-- The tree can be shown. -/
  code_tree : ∀ quiet json, (view quiet (.tree path json)).code = 0
  /-- A check succeeds just if nothing is amiss. -/
  code_check : ∀ quiet json,
    (view quiet (.check path json)).code = if (parse source).diagnostics = [] then 0 else 1
  /-- The report of a check in JSON tells the number of findings, and lists as many. -/
  report : ∀ quiet, ∃ members findings,
    Json.read? (view quiet (.check path true)).stdout = some (.object members) ∧
    Json.member? members "errors" = some (.number (parse source).diagnostics.length) ∧
    Json.member? members "valid" = some (.bool ((parse source).diagnostics.length == 0)) ∧
    Json.member? members "diagnostics" = some (.array findings) ∧
    findings.length = (parse source).diagnostics.length
  /-- On the side of a tree there is a line for each finding. -/
  tree_stderr : ∀ quiet,
    (view quiet (.tree path false)).stderr.toList.count '\n' = (parse source).diagnostics.length
  /-- On the side of a check there are the same lines, and a summary that tells their number. -/
  check_stderr : ∀ quiet,
    (view quiet (.check path false)).stderr =
      (view quiet (.tree path false)).stderr ++
        summary color path (parse source).diagnostics.length
  /-- A plain check of a clean text tells its success, unless it is quiet. -/
  success : (parse source).diagnostics = [] →
    (view false (.check path false)).stdout =
      green color "✓" ++ " " ++ path ++ " is valid" ++ "\n" ∧
    view true (.check path false) = { view false (.check path false) with out := [] }
  /-- Nothing else is changed by being quiet. -/
  quiet : ∀ json trivia, ∀ request ∈ views path json trivia,
    request ≠ .check path false ∨ (parse source).diagnostics ≠ [] →
      view true request = view false request
  /-- The texts of all tokens in JSON make up the text. -/
  tokens_text : ∀ quiet, ∃ items texts,
    Json.read? (view quiet (.tokens path true true)).stdout = some (.array items) ∧
    items.map tokenText? = texts.map some ∧ String.join texts = source

section Views

variable {color quiet : Bool} {path source : String}

/-! ### The outcomes of a check -/

/-- The report of a check is the same, quiet or not. -/
lemma check_json :
    check color quiet true path source =
      { code := if (parse source).diagnostics = [] then 0 else 1
        out := [(checkReport path (parse source)).pretty] } := by
  simp [check, Parse.isOk]

lemma check_of_clean (h : (parse source).diagnostics = []) :
    check color quiet false path source =
      { code := 0
        out := if quiet then [] else [green color "✓" ++ " " ++ path ++ " is valid"] } := by
  simp [check, Parse.isOk, h]

lemma check_of_findings (h : (parse source).diagnostics ≠ []) :
    check color quiet false path source =
      { code := 1
        err := diagnosticLines color path source (parse source) ++
          [red color "✗" ++ " " ++ toString (parse source).diagnostics.length ++
            " syntax error(s) in " ++ path] } := by
  simp [check, Parse.isOk, h, errors_eq_diagnostics]

lemma code_check (json : Bool) :
    (check color quiet json path source).code =
      if (parse source).diagnostics = [] then 0 else 1 := by
  cases json with
  | true => rw [check_json]
  | false =>
    by_cases h : (parse source).diagnostics = []
    · rw [check_of_clean h, if_pos h]
    · rw [check_of_findings h, if_neg h]

/-- The report of a check is read back. -/
lemma read?_check_json : ∃ members findings,
    Json.read? (check color quiet true path source).stdout = some (.object members) ∧
    Json.member? members "errors" = some (.number (parse source).diagnostics.length) ∧
    Json.member? members "valid" = some (.bool ((parse source).diagnostics.length == 0)) ∧
    Json.member? members "diagnostics" = some (.array findings) ∧
    findings.length = (parse source).diagnostics.length := by
  rw [check_json, Outcome.stdout, printed_singleton,
    Json.read?_pretty_line (isPlain_checkReport path (parse source)), checkReport, Json.sortKeys]
  refine ⟨_, Json.sortKeysOfItems ((parse source).diagnostics.map Diagnostic.toJson), rfl,
    ?errors, ?valid, ?findings, ?length⟩
  case errors =>
    rw [member?_mergeSort, errors_eq_diagnostics]
    rfl
  case valid =>
    have hvalid : (parse source).isOk = ((parse source).diagnostics.length == 0) := by
      rw [Parse.isOk]
      cases (parse source).diagnostics <;> rfl
    rw [member?_mergeSort, hvalid]
    rfl
  case findings =>
    rw [member?_mergeSort]
    rfl
  case length => rw [length_sortKeysOfItems, List.length_map]

lemma stderr_check :
    (check color quiet false path source).stderr =
      printed (diagnosticLines color path source (parse source)) ++
        summary color path (parse source).diagnostics.length := by
  by_cases h : (parse source).diagnostics = []
  · rw [check_of_clean h, summary, diagnosticLines, h]
    rfl
  · rw [check_of_findings h, summary, if_neg (by simpa using h)]
    exact (printed_append _ _).trans (congrArg _ (printed_singleton _))

/-- The texts of all tokens are read back. -/
lemma read?_tokens : ∃ items texts,
    Json.read? (tokens true true source).stdout = some (.array items) ∧
    items.map tokenText? = texts.map some ∧ String.join texts = source := by
  have htokens : tokens true true source =
      { code := 0, out := [(Json.array ((tokenize source).map Token.toJson)).pretty] } := by
    simp [tokens]
  rw [htokens, Outcome.stdout, printed_singleton, Json.read?_pretty_line (isPlain_tokens _)]
  refine ⟨_, (tokenize source).map (·.text), rfl, ?_, join_text_tokenize source⟩
  rw [List.map_map, List.map_map]
  rfl

/-! ### The views of a text -/

variable {read : String → Except ReadError String}

lemma viewsAgree_of_read (hpath : '\n' ∉ path.toList) (hread : read path = .ok source) :
    ViewsAgree color path source fun quiet request => run color read ⟨request, quiet, false⟩ := by
  have hcheck (quiet json : Bool) : run color read ⟨.check path json, quiet, false⟩ =
      check color quiet json path source := by simp only [run, hread, onFile]
  have htokens (quiet json trivia : Bool) :
      run color read ⟨.tokens path json trivia, quiet, false⟩ = tokens json trivia source := by
    simp only [run, hread, onFile]
  have htree (quiet json : Bool) : run color read ⟨.tree path json, quiet, false⟩ =
      tree color json path source := by simp only [run, hread, onFile]
  constructor
  -- Only a plain check looks at `quiet`, and only when nothing is amiss.
  case quiet =>
    intro json trivia request hrequest h
    simp only [views, List.mem_cons, List.not_mem_nil, or_false] at hrequest
    rcases hrequest with rfl | rfl | rfl
    · simp only [hcheck]
      cases json with
      | true => rw [check_json, check_json]
      | false =>
        have hfound := h.resolve_left fun h => h rfl
        rw [check_of_findings hfound, check_of_findings hfound]
    · simp only [htokens]
    · simp only [htree]
  all_goals simp only [hcheck, htokens, htree]
  case code_tokens =>
    intro _ json _
    cases json <;> rfl
  case code_tree =>
    intro _ json
    cases json <;> rfl
  case code_check => exact fun _ => code_check
  case report => exact fun _ => read?_check_json
  case tree_stderr => exact fun _ => count_diagnosticLines color hpath source
  case check_stderr => exact fun _ => stderr_check
  case success =>
    intro h
    rw [check_of_clean h, check_of_clean h]
    exact ⟨printed_singleton _, rfl⟩
  case tokens_text => exact fun _ => read?_tokens

/-- **The views of a file agree.** If the file cannot be read, all of them fail and answer nothing,
quiet or not. Otherwise they agree on its text. A file that holds bytes has a text just if they are
one in UTF-8, and then they are those of the text. Paths that break over lines are left aside.

**Proof sketch.** Each view is a function of the text alone. The messages of findings are single
lines, so that findings and lines can be counted alike, and what is printed in JSON is read back. -/
theorem run_views (color : Bool) (read : String → Except ReadError String) (path : String)
    (hpath : '\n' ∉ path.toList) :
    (∀ e, read path = .error e → ∀ quiet json trivia, ∀ request ∈ views path json trivia,
      (run color read ⟨request, quiet, false⟩).code = 2 ∧
        (run color read ⟨request, quiet, false⟩).stdout = "" ∧
        run color read ⟨request, quiet, false⟩ = run color read ⟨request, false, false⟩) ∧
    (∀ source, read path = .ok source →
      ViewsAgree color path source fun quiet request => run color read ⟨request, quiet, false⟩) ∧
    ∀ bytes, read path = decode bytes →
      ((∃ source, read path = .ok source) ↔ bytes.IsValidUTF8) ∧
        ∀ source, read path = .ok source → source.toUTF8 = bytes := by
  refine ⟨fun e he quiet json trivia request hrequest => ?_, fun source => viewsAgree_of_read hpath,
    fun bytes hbytes => ⟨?_, fun source hsource => ?_⟩⟩
  · simp only [views, List.mem_cons, List.not_mem_nil, or_false] at hrequest
    rcases hrequest with rfl | rfl | rfl
    all_goals
      simp only [run, he, onFile]
      exact ⟨rfl, rfl, trivial⟩
  · rw [hbytes]
    constructor
    · rintro ⟨source, hsource⟩
      exact decode_eq_ok_iff.1 hsource ▸ source.isValidUTF8
    · exact fun h => ⟨.fromUTF8 bytes h, decode_eq_ok_iff.2 rfl⟩
  · exact decode_eq_ok_iff.1 (hbytes ▸ hsource)

/-- A semicolon is missing: a check fails, even a quiet one, and sums up what the tree shows on its
side. -/
theorem run_views_missing_semicolon :
    '\n' ∉ "a.tx3".toList ∧ (parse "party A").diagnostics.length = 1 ∧
      (run false (fun _ => .ok "party A") ⟨.check "a.tx3" true, true, false⟩).code = 1 ∧
      (run false (fun _ => .ok "party A") ⟨.tree "a.tx3" false, true, false⟩).stderr.toList.count
        '\n' = 1 ∧
      (run false (fun _ => .ok "party A") ⟨.check "a.tx3" false, true, false⟩).stderr =
        (run false (fun _ => .ok "party A") ⟨.tree "a.tx3" false, true, false⟩).stderr ++
          "✗ 1 syntax error(s) in a.tx3\n" := by
  have hpath : '\n' ∉ "a.tx3".toList := by decide
  have hone : (parse "party A").diagnostics.length = 1 := by
    have hfound : (runFile (tokenize "party A")).finish.diagnostics.toList.length = 1 := by
      decide +kernel
    rwa [diagnostics_parse, Diagnostic.sort, List.length_mergeSort]
  have hagree := (run_views false (fun _ => .ok "party A") "a.tx3" hpath).2.1 "party A" rfl
  have hcode := hagree.code_check true true
  have hlines := hagree.tree_stderr true
  have hsummary := hagree.check_stderr true
  rw [hone] at hlines hsummary
  rw [if_neg (List.ne_nil_of_length_eq_add_one hone)] at hcode
  exact ⟨hpath, hone, hcode, hlines, hsummary⟩

end Views

end Command

end TxTree
