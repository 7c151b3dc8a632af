import SparqlClient.Proofs.Rdf.Data
import SparqlClient.Proofs.Rdf.Respelled

/-! Strings in a document. Main statement: a string is written where it stands in its triple, on
its line but for a line end that the check of languages lets through, and the characters between
its quotes stand for just the text; any text written in ASCII stands for what it stood for before,
and is not changed again. -/

namespace SparqlClient.Rdf

open Text

inductive IsString (p : Option Prefixes) : Value → String → String → Prop
  | text {x : String} (kind : (classifyText p x).kind = .compact ∨ (classifyText p x).kind = .raw) :
    IsString p (.text x) x ""
  | plain {x : String} {d : Value} (untyped : d.truth = false) :
    IsString p (.term .string (.text x) .null d) x ""
  | tagged {x l : String} {lang d : Value} (named : lang.chars? = some l)
    (untyped : d.truth = false) : IsString p (.term .string (.text x) lang d) x l

def literalText (x l : String) : String := doubleQuoted x ++ if l = "" then "" else "@" ++ l

/-- The language that the check lets through. -/
def IsPassed (l : String) : Prop := l = "" ∨ Literal.isLanguageTag l = true

instance (l : String) : Decidable (IsPassed l) := inferInstanceAs (Decidable (_ ∨ _))

variable {p : Option Prefixes} {o : Value} {x l : String}

theorem toNode_string (string : IsString p o x l) :
    toNode p "object" o = Literal.make (.text x) (some l) none := by
  have untagged : Literal.make (.text x) none none = Literal.make (.text x) (some "") none := rfl
  cases string with
  | text kind =>
    have read : ∃ k, classifyText p x = .ofText k x ∧ (k = .compact ∨ k = .raw) := by
      rcases classifyText_cases p x with ⟨-, own⟩ | ⟨k, y, own, resource⟩ | ⟨-, own⟩ | own
      · rw [own] at kind
        cases kind <;> contradiction
      · rw [own] at kind
        rcases resource with rfl | rfl <;> cases kind <;> contradiction
      · rw [own] at kind
        cases kind <;> contradiction
      · exact own
    obtain ⟨k, own, rest⟩ := read
    rw [← untagged]
    unfold toNode
    simp only [classify_text, own]
    rcases rest with rfl | rfl <;> rfl
  | plain untyped =>
    rw [← untagged]
    unfold toNode
    simp only [classify, untyped]
    rfl
  | @tagged x l lang d known untyped =>
    have language : named lang = .ok l := by rw [named, known]
    have present : lang.isNull = false := by cases lang <;> first | rfl | cases known
    unfold toNode
    simp only [classify, untyped, present, language]
    rfl

theorem make_text (x l : String) : Literal.make (.text x) (some l) none =
    if IsPassed l then .ok (.literal x ((some l).filter (· ≠ "")) none)
    else Misuse.fail .badValue := by
  by_cases empty : l = ""
  · subst empty
    exact congrArg Except.ok (ofText_plain x none)
  · have kept : (some l).filter (· ≠ "") = some l := by simp [empty]
    unfold Literal.make
    simp only [kept, ofText_plain, IsPassed, empty, false_or]
    cases checked : Literal.isLanguageTag l <;> simp [checked]

theorem annotate_string (x l : String) :
    Node.annotate (doubleQuoted x) ((some l).filter (· ≠ "")) none = literalText x l := by
  by_cases empty : l = ""
  · subst empty
    rw [literalText, if_pos rfl, String.append_empty]
    rfl
  · have kept : (some l).filter (· ≠ "") = some l := by simp [empty]
    rw [kept, annotate_tag _ empty, literalText, if_neg empty]

/-! The lines of a document. -/

def heading (p : Option Prefixes) (s q : Value) : Outcome String := do
  let subject ← toNode p "subject" s
  let predicate ← toNode p "predicate" q
  if predicate.isUri then return (← subject.turtle) ++ " " ++ (← predicate.turtle) ++ " "
  else CompilationError.fail (.predicateNotIri q.display)

theorem statementLine_string {v s q : Value} (parts : v.triple = .ok (s, q, o))
    (string : IsString p o x l) (passed : IsPassed l) : statementLine p v =
      (heading p s q).map fun head => head ++ literalText x l ++ " ." := by
  have object : toNode p "object" o = .ok (.literal x ((some l).filter (· ≠ "")) none) := by
    rw [toNode_string string, make_text, if_pos passed]
  have written : (Node.literal x ((some l).filter (· ≠ "")) none).ntriples =
      .ok (literalText x l) := congrArg Except.ok (annotate_string x l)
  simp only [statementLine, heading, parts, object, bind, Except.bind]
  cases toNode p "subject" s with
  | error e => rfl
  | ok subject =>
    cases toNode p "predicate" q with
    | error e => rfl
    | ok predicate =>
      simp only [written]
      cases predicate.isUri with
      | false => rfl
      | true =>
        cases subject.turtle with
        | error e => rfl
        | ok st => cases predicate.turtle <;> rfl

theorem statementLine_refused {v s q : Value} {line : String} (parts : v.triple = .ok (s, q, o))
    (string : IsString p o x l) (refused : ¬IsPassed l) : statementLine p v ≠ .ok line := by
  intro written
  obtain ⟨t, nodes, -⟩ := nodesOf_of_statementLine written
  have object : toNode p "object" o = Misuse.fail .badValue := by
    rw [toNode_string string, make_text, if_neg refused]
  obtain ⟨⟨s', q', o'⟩, own, nodes⟩ := Outcome.bind_eq_ok_iff.1 nodes
  obtain ⟨rfl, rfl, rfl⟩ : s = s' ∧ q = q' ∧ o = o' := by simpa using parts.symm.trans own
  obtain ⟨subject, -, nodes⟩ := Outcome.bind_eq_ok_iff.1 nodes
  obtain ⟨predicate, -, nodes⟩ := Outcome.bind_eq_ok_iff.1 nodes
  rw [object] at nodes
  cases nodes

def document (lines : List String) : String :=
  String.join ((lines.map escapeUnicode).map (· ++ "\n"))

theorem document_append (a b : List String) : document (a ++ b) = document a ++ document b := by
  simp [document, String.join_append]

theorem serializeTriples_eq {triples : Value} {vs : List Value}
    (members : triples.members = .ok vs) :
    serializeTriples p triples = (vs.mapM (statementLine p)).map document := by
  unfold serializeTriples
  rw [members]
  simp only [bind, Except.bind, escapeUnicode_lines]
  cases vs.mapM (statementLine p) <;> rfl

theorem serializeTriples_string {triples v s q : Value} {before behind : List Value}
    (members : triples.members = .ok (before ++ v :: behind)) (parts : v.triple = .ok (s, q, o))
    (string : IsString p o x l) (passed : IsPassed l) : serializeTriples p triples = do
      let front ← before.mapM (statementLine p)
      let head ← heading p s q
      let rest ← behind.mapM (statementLine p)
      return document front ++ (escapeUnicode head ++ escapeUnicode (literalText x l) ++ " .\n") ++
        document rest := by
  have line (head : String) : document [head ++ literalText x l ++ " ."] =
      escapeUnicode head ++ escapeUnicode (literalText x l) ++ " .\n" := by
    have stop : escapeUnicode " ." = " ." := escapeUnicode_of_isAscii (by simp [IsAscii])
    simp [document, escapeUnicode_append, stop, String.append_assoc]
  rw [serializeTriples_eq members, List.mapM_append, List.mapM_cons,
    statementLine_string parts string passed]
  cases before.mapM (statementLine p) with
  | error e => rfl
  | ok front =>
    cases heading p s q with
    | error e => rfl
    | ok head =>
      cases behind.mapM (statementLine p) with
      | error e => rfl
      | ok rest =>
        have whole : document (front ++ (head ++ literalText x l ++ " .") :: rest) =
            document front ++ (escapeUnicode head ++ escapeUnicode (literalText x l) ++ " .\n") ++
              document rest := by
          rw [← line, ← List.singleton_append, document_append, document_append]
          exact (String.append_assoc ..).symm
        exact congrArg Except.ok whole

def tagOf (l : String) : List Char := if l = "" then [] else '@' :: l.toList

theorem IsPassed.ascii (passed : IsPassed l) : ∀ c ∈ tagOf l, c.toNat ≤ 0x7F := by
  rcases passed with rfl | checked
  · exact fun c member => nomatch member
  · obtain ⟨tag, own, same⟩ := exists_tag_of_isLanguageTag checked
    have ascii : ∀ c ∈ l.toList, c.toNat ≤ 0x7F := by
      rcases same with same | same <;> rw [same]
      · exact own.ascii
      · exact List.forall_mem_append.2 ⟨own.ascii, by decide⟩
    unfold tagOf
    split
    · exact fun c member => nomatch member
    · exact List.forall_mem_cons.2 ⟨by decide, ascii⟩

theorem toList_literalText (x : String) (passed : IsPassed l) :
    (escapeUnicode (literalText x l)).toList =
      '"' :: (respell (x.toList.flatMap literalEscape) ++ '"' :: tagOf l) := by
  have text : (literalText x l).toList =
      '"' :: (x.toList.flatMap literalEscape ++ '"' :: tagOf l) := by
    unfold literalText tagOf doubleQuoted escapeLiteral
    split <;> simp
  rw [toList_escapeUnicode_eq, text, respell_cons (by decide), respell_append,
    respell_cons (by decide), respell_of_ascii passed.ascii]

/-- A line is broken by nothing but the line end behind a language. -/
theorem isUnbroken_literalText_iff (x : String) (passed : IsPassed l) :
    IsUnbroken (escapeUnicode (literalText x l)).toList ↔ l.toList.getLast? ≠ some '\n' := by
  constructor
  · intro unbroken last
    have member : '\n' ∈ tagOf l := by
      unfold tagOf
      rw [if_neg (by rintro rfl; cases last)]
      exact List.mem_cons_of_mem _ (List.mem_of_getLast? last)
    have inside : '\n' ∈ (escapeUnicode (literalText x l)).toList := by
      rw [toList_literalText x passed]
      simp [member]
    cases unbroken _ inside
  · intro line
    have suffix : IsUnbroken (if l = "" then "" else "@" ++ l).toList := by
      split
      · exact fun c member => nomatch member
      · rename_i filled
        have tag := isTag_of_isLanguageTag (passed.resolve_left filled) line
        have mark : IsUnbroken "@".toList := by decide
        rw [String.toList_append]
        exact mark.append tag.isUnbroken
    rw [toList_escapeUnicode]
    refine isUnbroken_spelled .lines ?_
    rw [literalText, String.toList_append]
    exact (isUnbroken_doubleQuoted x).append suffix

theorem exists_body_of_literalText (x : String) (passed : IsPassed l) :
    ∃ body, (escapeUnicode (literalText x l)).toList = '"' :: (body ++ '"' :: tagOf l) ∧
      decoded body = x.toList ∧ stringBody? (body ++ '"' :: tagOf l) = some (x.toList, tagOf l) := by
  have read := stringBody?_text .lines x.toList (tagOf l)
  obtain ⟨body, whole, inner⟩ := decoded_of_stringBody? read
  obtain rfl := List.append_cancel_right whole
  exact ⟨_, toList_literalText x passed, inner, read⟩

theorem isAscii_of_serialized {triples : Value} {text : String}
    (h : serializeTriples p triples = .ok text) : IsAscii text := by
  obtain ⟨vs, -, h⟩ := Outcome.bind_eq_ok_iff.1 h
  obtain ⟨lines, -, h⟩ := Outcome.bind_eq_ok_iff.1 h
  obtain rfl := Outcome.pure_eq_ok_iff.1 h
  exact isAscii_escapeUnicode _

/-- A string is written at its place in the document if its language is let through, and there is
no document otherwise. What stands between its quotes stands for just the text. -/
theorem strings_of_serialized {triples v s q : Value} {before behind : List Value}
    (members : triples.members = .ok (before ++ v :: behind)) (parts : v.triple = .ok (s, q, o))
    (string : IsString p o x l) :
    (IsPassed l →
      (serializeTriples p triples = do
        let front ← before.mapM (statementLine p)
        let head ← heading p s q
        let rest ← behind.mapM (statementLine p)
        return document front ++
          (escapeUnicode head ++ escapeUnicode (literalText x l) ++ " .\n") ++ document rest) ∧
      (∃ body, (escapeUnicode (literalText x l)).toList = '"' :: (body ++ '"' :: tagOf l) ∧
        decoded body = x.toList ∧
        stringBody? (body ++ '"' :: tagOf l) = some (x.toList, tagOf l)) ∧
      (IsUnbroken (escapeUnicode (literalText x l)).toList ↔ l.toList.getLast? ≠ some '\n')) ∧
    (¬IsPassed l → ∀ text, serializeTriples p triples ≠ .ok text) ∧
    (∀ text, serializeTriples p triples = .ok text → IsAscii text) ∧
    ∀ text, IsAscii (escapeUnicode text) ∧ escapeUnicode (escapeUnicode text) = escapeUnicode text ∧
      (decoded (escapeUnicode text).toList = decoded text.toList ↔ ¬HasStray text.toList) ∧
      ∀ ts, document? text = some ts → (∀ t ∈ ts, IsLabeled t.1 ∧ IsLabeled t.2.2) →
        document? (escapeUnicode text) = some ts := by
  refine ⟨fun passed => ⟨serializeTriples_string members parts string passed,
    exists_body_of_literalText x passed, isUnbroken_literalText_iff x passed⟩, ?_,
    fun text => isAscii_of_serialized, fun text => ⟨isAscii_escapeUnicode text,
      escapeUnicode_of_isAscii (isAscii_escapeUnicode text), ?_, fun _ => document?_respell⟩⟩
  · intro refused text written
    rw [serializeTriples_eq members] at written
    obtain ⟨lines, each, -⟩ := Outcome.map_eq_ok_iff.1 written
    obtain ⟨line, -, own⟩ := forall₂_left (Outcome.forall₂_of_mapM each)
      (List.mem_append_right before (List.mem_cons_self ..))
    exact statementLine_refused parts string refused own
  · rw [toList_escapeUnicode_eq]
    exact decoded_respell_iff text.toList

theorem strings_of_serialized_escaped :
    serializeTriples none (.list [.list [.text "http://h/s", .text "http://h/p",
      .term .string (.text "\\u00E9 \\é\n\"😀") (.text "fr") .null]]) =
        .ok "<http://h/s> <http://h/p> \"\\\\u00E9 \\\\\\u00E9\\n\\\"\\U0001F600\"@fr .\n" ∧
      ∃ body, (escapeUnicode (literalText "\\u00E9 \\é\n\"😀" "fr")).toList =
          '"' :: (body ++ '"' :: tagOf "fr") ∧ decoded body = "\\u00E9 \\é\n\"😀".toList := by
  have members : (Value.list [.list [.text "http://h/s", .text "http://h/p",
      .term .string (.text "\\u00E9 \\é\n\"😀") (.text "fr") .null]]).members =
        .ok ([] ++ .list [.text "http://h/s", .text "http://h/p",
          .term .string (.text "\\u00E9 \\é\n\"😀") (.text "fr") .null] :: []) := rfl
  obtain ⟨written, ⟨body, text, inner, -⟩, -⟩ :=
    (strings_of_serialized (p := none) members rfl (.tagged rfl rfl)).1 (by decide)
  exact ⟨written.trans (by rfl), body, text, inner⟩

/-- The check of a language looks at the text up to a last line end. -/
theorem exists_broken_literal : ∃ l, IsPassed l ∧
    serializeTriples none (.list [.list [.text "http://e/s", .text "http://e/p",
      .term .string (.text "v") (.text l) .null]]) =
        .ok "<http://e/s> <http://e/p> \"v\"@en\n .\n" ∧
    ¬IsUnbroken (escapeUnicode (literalText "v" l)).toList :=
  ⟨"en\n", by decide, by rfl, by decide⟩

end SparqlClient.Rdf
