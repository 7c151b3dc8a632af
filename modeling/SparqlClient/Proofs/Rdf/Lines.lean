import SparqlClient.Proofs.Query.Run
import SparqlClient.Proofs.Rdf.Written

/-! Triples as N-Triples. Main statement: there is a line for each triple, in their order, and where
the nodes of a triple are in the grammar its line holds one statement, which is read as just these
nodes. A string can hold anything; a label, an IRI with controls in it and a language are written
as they are given. -/

namespace SparqlClient.Rdf

open Text

def nodesOf (p : Option Prefixes) (v : Value) : Outcome Triple := do
  let (subject, predicate, object) ← v.triple
  return (← toNode p "subject" subject, ← toNode p "predicate" predicate,
    ← toNode p "object" object)

/-- The nodes can be written where they stand. -/
structure IsGrammatical (t : Triple) : Prop where
  subject : Writable .lines t.1
  resource : ∀ text lang datatype, t.1 ≠ .literal text lang datatype
  predicate : Writable .lines t.2.1
  object : Writable .lines t.2.2

structure IsLine (t : Triple) (line : String) : Prop where
  isUri : t.2.1.isUri = true
  written : ∃ s q o, t.1.turtle = .ok s ∧ t.2.1.turtle = .ok q ∧ t.2.2.ntriples = .ok o ∧
    line = s ++ " " ++ q ++ " " ++ o ++ " ."

theorem nodesOf_of_statementLine {p : Option Prefixes} {v : Value} {line : String}
    (h : statementLine p v = .ok line) : ∃ t, nodesOf p v = .ok t ∧ IsLine t line := by
  obtain ⟨⟨subject, predicate, object⟩, parts, h⟩ := Outcome.bind_eq_ok_iff.1 h
  obtain ⟨s, first, h⟩ := Outcome.bind_eq_ok_iff.1 h
  obtain ⟨q, second, h⟩ := Outcome.bind_eq_ok_iff.1 h
  split at h
  · rename_i uri
    obtain ⟨o, third, h⟩ := Outcome.bind_eq_ok_iff.1 h
    obtain ⟨st, hs, h⟩ := Outcome.bind_eq_ok_iff.1 h
    obtain ⟨qt, hq, h⟩ := Outcome.bind_eq_ok_iff.1 h
    obtain ⟨ot, ho, h⟩ := Outcome.bind_eq_ok_iff.1 h
    refine ⟨(s, q, o), ?_, uri, st, qt, ot, hs, hq, ho, (Outcome.pure_eq_ok_iff.1 h)⟩
    simp [nodesOf, parts, first, second, third, bind, Except.bind, pure, Except.pure]
  · cases h

theorem statement?_of_isLine {t : Triple} {line : String} (own : IsLine t line)
    (grammatical : IsGrammatical t) :
    IsUnbroken (spelled .lines line) ∧ statement? (spelled .lines line) = some t := by
  obtain ⟨subject, predicate, object⟩ := t
  obtain ⟨uri, s, q, o, hs, hq, ho, rfl⟩ := own
  obtain ⟨first, resource, second, third⟩ := grammatical
  have same : subject.ntriples = subject.turtle := by
    cases subject with
    | literal text lang datatype => exact absurd rfl (resource text lang datatype)
    | _ => rfl
  have plain : predicate.ntriples = predicate.turtle := by
    cases predicate with
    | uri t => rfl
    | _ => cases uri
  constructor
  · refine isUnbroken_spelled .lines ?_
    have blank : IsUnbroken " ".toList ∧ IsUnbroken " .".toList := by decide
    have left := (isUnbroken_ntriples first (same ▸ hs)).append blank.1
    have middle := (isUnbroken_ntriples second (plain ▸ hq)).append blank.1
    have right := (isUnbroken_ntriples third ho).append blank.2
    simpa [String.toList_append] using left.append (middle.append right)
  · have read := triple?_spelled (fun r => resource?_turtle (s := r) first resource hs)
      (fun r => iri?_turtle (s := ' ' :: r) second uri hq)
      (fun r => object?_ntriples (s := r) third ho) []
    rw [List.append_nil] at read
    rw [statement?, skip_of_triple? read, read]
    rfl

/-! Documents. -/

theorem piecesBy_line {line s : List Char} (unbroken : IsUnbroken line) :
    piecesBy isLineEnd (line ++ '\n' :: s) = line :: piecesBy isLineEnd s := by
  induction line with
  | nil => rfl
  | cons c line ih =>
    rw [IsUnbroken, List.forall_mem_cons] at unbroken
    rw [List.cons_append, piecesBy, ih unbroken.2]
    simp [unbroken.1]

theorem not_isOver_of_statement? {line : List Char} {t : Triple}
    (read : statement? line = some t) : isOver line = false := by
  obtain ⟨x, first, -⟩ := Option.bind_eq_some_iff.1 read
  obtain ⟨y, resource, -⟩ := Option.bind_eq_some_iff.1 first
  unfold isOver
  split
  · rename_i nothing
    rw [nothing] at resource
    cases resource
  · rename_i c s split
    rw [split] at resource
    by_cases comment : c = '#'
    · subst comment
      cases resource
    · simp [comment]

theorem document?_lines {ts : List Triple} {lines : List String}
    (each : List.Forall₂ (fun t line => IsUnbroken line.toList ∧ statement? line.toList = some t)
      ts lines) : document? (String.join (lines.map (· ++ "\n"))) = some ts := by
  unfold document?
  induction each with
  | nil => rfl
  | @cons t line ts lines first rest ih =>
    have text : (String.join ((line :: lines).map (· ++ "\n"))).toList =
        line.toList ++ '\n' :: (String.join (lines.map (· ++ "\n"))).toList := by
      simp
    rw [text, piecesBy_line first.1, List.filter_cons_of_pos (by
      simp [not_isOver_of_statement? first.2]), List.mapM_cons, first.2, ih]
    rfl

theorem escapeUnicode_lines (lines : List String) :
    escapeUnicode (String.intercalate "\n" lines ++ if lines.isEmpty then "" else "\n") =
      String.join ((lines.map escapeUnicode).map (· ++ "\n")) := by
  have newline : spelled .lines "\n" = ['\n'] := spelled_ascii .lines (by decide)
  rw [← String.toList_inj, toList_escapeUnicode, spelled_append]
  induction lines with
  | nil => rfl
  | cons line lines ih =>
    cases lines with
    | nil => simp [toList_escapeUnicode, newline]
    | cons next lines =>
      have behind := ih
      simp only [List.isEmpty_cons, Bool.false_eq_true, if_false] at behind ⊢
      rw [String.intercalate_cons_cons, spelled_append, spelled_append, List.append_assoc,
        List.append_assoc, behind]
      simp [toList_escapeUnicode, newline]

theorem nodesOf_of_mapM {p : Option Prefixes} {vs : List Value} {lines : List String}
    (h : List.Forall₂ (fun v line => statementLine p v = .ok line) vs lines) :
    ∃ ts, vs.mapM (nodesOf p) = .ok ts ∧ List.Forall₂ IsLine ts lines := by
  induction h with
  | nil => exact ⟨[], rfl, .nil⟩
  | cons first _ ih =>
    obtain ⟨t, nodes, own⟩ := nodesOf_of_statementLine first
    obtain ⟨ts, others, rest⟩ := ih
    refine ⟨t :: ts, ?_, .cons own rest⟩
    rw [List.mapM_cons, nodes, others]
    rfl

theorem isLine_of_serialized {p : Option Prefixes} {triples : Value} {text : String}
    (h : serializeTriples p triples = .ok text) :
    ∃ vs ts lines, triples.members = .ok vs ∧ vs.mapM (nodesOf p) = .ok ts ∧
      List.Forall₂ IsLine ts lines ∧
      text = String.join ((lines.map escapeUnicode).map (· ++ "\n")) := by
  obtain ⟨vs, members, h⟩ := Outcome.bind_eq_ok_iff.1 h
  obtain ⟨lines, each, h⟩ := Outcome.bind_eq_ok_iff.1 h
  obtain rfl := Outcome.pure_eq_ok_iff.1 h
  obtain ⟨ts, nodes, own⟩ := nodesOf_of_mapM (Outcome.forall₂_of_mapM each)
  exact ⟨vs, ts, lines, members, nodes, own, escapeUnicode_lines lines⟩

theorem statement?_of_lines {ts : List Triple} {lines : List String}
    (own : List.Forall₂ IsLine ts lines) :
    List.Forall₂ (fun t line => IsGrammatical t →
      IsUnbroken line.toList ∧ statement? line.toList = some t) ts (lines.map escapeUnicode) := by
  rw [List.forall₂_map_right_iff]
  refine own.imp fun t line written grammatical => ?_
  rw [toList_escapeUnicode]
  exact statement?_of_isLine written grammatical

/-- There is a line for each triple; it is one statement with the nodes of the triple where these
are in the grammar, and a document of such lines has no other statements. -/
theorem lines_of_serialized {p : Option Prefixes} {triples : Value} {text : String}
    (h : serializeTriples p triples = .ok text) :
    ∃ vs ts lines, triples.members = .ok vs ∧ vs.mapM (nodesOf p) = .ok ts ∧
      text = String.join (lines.map (· ++ "\n")) ∧
      List.Forall₂ (fun t line => IsGrammatical t →
        IsUnbroken line.toList ∧ statement? line.toList = some t) ts lines ∧
      ((∀ t ∈ ts, IsGrammatical t) → document? text = some ts) := by
  obtain ⟨vs, ts, lines, members, nodes, own, rfl⟩ := isLine_of_serialized h
  have read := statement?_of_lines own
  exact ⟨vs, ts, lines.map escapeUnicode, members, nodes, rfl, read, fun grammatical =>
    document?_lines (forall₂_of_forall_mem read grammatical)⟩

theorem lines_of_serialized_quoted : ∃ text lines,
    serializeTriples none (.list [.list [.text "http://h/s", .text "http://h/p",
      .text "a \"b\"\n<é> ."]]) = .ok text ∧ text = String.join (lines.map (· ++ "\n")) ∧
    List.Forall₂ (fun t line => IsGrammatical t →
      IsUnbroken line.toList ∧ statement? line.toList = some t)
      [(.uri "http://h/s", .uri "http://h/p", .literal "a \"b\"\n<é> ." none none)] lines := by
  have written : serializeTriples none (.list [.list [.text "http://h/s", .text "http://h/p",
      .text "a \"b\"\n<é> ."]]) =
      .ok "<http://h/s> <http://h/p> \"a \\\"b\\\"\\n<\\u00E9> .\" .\n" := by rfl
  obtain ⟨vs, ts, lines, members, nodes, text, each, -⟩ := lines_of_serialized written
  obtain rfl := Except.ok.inj members
  obtain rfl := Except.ok.inj nodes
  exact ⟨_, lines, written, text, each⟩

/-- A label is written as it is given, so that one triple can bring a second statement along. -/
theorem exists_label_of_statement : ∃ object text,
    serializeTriples none (.list [.list [.text "http://h/s", .text "http://h/p", .text object]]) =
      .ok text ∧
    document? text = some [(.uri "http://h/s", .uri "http://h/p", .blank "x"),
      (.uri "http://h/evil", .uri "http://h/p", .uri "http://h/o")] :=
  ⟨"_:x .\n<http://h/evil> <http://h/p> <http://h/o>",
    "<http://h/s> <http://h/p> _:x .\n<http://h/evil> <http://h/p> <http://h/o> .\n", by rfl,
    by decide +kernel⟩

end SparqlClient.Rdf
