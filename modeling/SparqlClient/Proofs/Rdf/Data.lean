import SparqlClient.Proofs.Rdf.Lines
import SparqlClient.Proofs.Term.Named
import SparqlClient.Query.Update

/-! The same triples written as an update and as N-Triples. Main statement: where the IRIs are in
normal form, the labels are in both grammars and a subject holds no alias, both texts are read as
the same nodes, in the same order. -/

namespace SparqlClient.Rdf

open Text

/-- A text, or a term with a value that its kind has: a resource, a truth, a whole number, or a
string with or without a language. -/
inductive IsDatum : Value → Prop
  | text (s : String) : IsDatum (.text s)
  | resource {k : TermKind} (named : k = .iri ∨ k = .urn ∨ k = .blank) (s : String) :
    IsDatum (.term k (.text s) .null .null)
  | boolean (b : Bool) : IsDatum (.term .boolean (.bool b) .null .null)
  | whole (n : Int) : IsDatum (.term .numeric (.int n) .null .null)
  | string (s : String) : IsDatum (.term .string (.text s) .null .null)
  | tagged (s l : String) : IsDatum (.term .string (.text s) (.text l) .null)

def IsNormal (i : String) : Prop := normalizeIri i = i ∧ ∀ c ∈ i.toList, 32 < c.toNat

/-- A label in both grammars, with its mark. -/
def IsMarked (s : String) : Prop :=
  ∃ l, s = "_:" ++ l ∧ IsLabel .lines l.toList ∧ IsLabel .update l.toList

/-- The value is written in the same way on both sides. -/
def IsSettled (t : Term) : Prop :=
  match t.kind with
  | .iri | .urn => IsNormal t.value.plainText
  | .blank => IsMarked t.value.plainText
  | .string => t.lang.plainText.toList.getLast? ≠ some '\n'
  | _ => True

/-- A node and the text that stands for it on both sides. -/
structure Agrees (text : String) (n : Node) : Prop where
  written : n.ntriples = .ok text
  writable : ∀ d, Writable d n

section

variable {t : Prefixes} {v : Value} {n : Node} {position text : String}

theorem toNode_resource {p : Option Prefixes} {k : TermKind} {s : String}
    (scalar : ∀ m, v ≠ .node m) (term : classify p v = .ofText k s) (kind : k = .iri ∨ k = .urn) :
    toNode p position v = .ok (.uri s) := by
  unfold toNode
  split
  · exact absurd rfl (scalar _)
  · rcases kind with rfl | rfl <;> simp only [term] <;> rfl

theorem toNode_blank {p : Option Prefixes} {s : String} (scalar : ∀ m, v ≠ .node m)
    (term : classify p v = .ofText .blank s) :
    toNode p position v = .ok (.blank (String.ofList (s.toList.drop 2))) := by
  unfold toNode
  split
  · exact absurd rfl (scalar _)
  · simp only [term]
    rfl

theorem position_of_toNode {p : Option Prefixes} (scalar : ∀ m, v ≠ .node m)
    (node : toNode p position v = .ok n) :
    (classify p v).kind = .iri ∨ (classify p v).kind = .urn ∨ (classify p v).kind = .blank ∨
      position = "object" := by
  unfold toNode at node
  split at node
  · exact absurd rfl (scalar _)
  · by_cases object : position = "object"
    · simp [object]
    · revert node
      simp only
      cases (classify p v).kind <;> simp [object, CompilationError.fail]

theorem agrees_uri {i : String} (normal : IsNormal i) (h : (Node.uri i).turtle = .ok text) :
    angled i = text ∧ Agrees text (.uri i) := by
  have plain : ∀ c ∈ i.toList, Node.isIriBreaker c = false := by
    change Node.uriText i = .ok text at h
    unfold Node.uriText at h
    split at h
    · cases h
    · rename_i none
      simpa using none
  refine ⟨?_, h, fun d c member => ?_⟩
  · rw [angled, normal.1, turtle_uri h]
  · simp [isIriChar, normal.2 c member, plain c member]

theorem agrees_blank {s : String} (marked : IsMarked s) :
    Agrees s (.blank (String.ofList (s.toList.drop 2))) := by
  obtain ⟨l, rfl, lines, update⟩ := marked
  have label : String.ofList (("_:" ++ l).toList.drop 2) = l := by
    rw [String.toList_append]
    exact String.ofList_toList
  rw [label]
  exact ⟨rfl, fun d => by cases d; exacts [lines, update]⟩

theorem agrees_resource {k : TermKind} {s : String} (scalar : ∀ m, v ≠ .node m)
    (term : classify (some t) v = .ofText k s) (kind : k = .iri ∨ k = .urn ∨ k = .blank)
    (settled : IsSettled (.ofText k s)) (node : toNode (some t) position v = .ok n)
    (h : n.turtle = .ok text) : (Term.ofText k s).render (some t) = text ∧ Agrees text n ∧
      ∀ lexical lang datatype, n ≠ .literal lexical lang datatype := by
  rcases kind with rfl | rfl | rfl
  · obtain rfl := Except.ok.inj ((toNode_resource scalar term (.inl rfl)).symm.trans node)
    obtain ⟨rendered, agrees⟩ := agrees_uri settled h
    exact ⟨rendered, agrees, by simp⟩
  · obtain rfl := Except.ok.inj ((toNode_resource scalar term (.inr rfl)).symm.trans node)
    obtain ⟨rendered, agrees⟩ := agrees_uri settled h
    exact ⟨rendered, agrees, by simp⟩
  · obtain rfl := Except.ok.inj ((toNode_blank scalar term).symm.trans node)
    have agrees := agrees_blank settled
    obtain rfl : s = text := Except.ok.inj (agrees.written.symm.trans h)
    exact ⟨rfl, agrees, by simp⟩

theorem classifyText_eq (p : Option Prefixes) (s : String) :
    (∃ k x, classifyText p s = .ofText k x ∧ (k = .iri ∨ k = .urn)) ∨
    ∃ k, classifyText p s = .ofText k s ∧
      (k = .blank ∨ k = .variable ∨ k = .compact ∨ k = .raw) := by
  rcases classifyText_cases p s with ⟨-, read⟩ | named | ⟨-, read⟩ | ⟨k, read, kind⟩
  · exact .inr ⟨_, read, .inl rfl⟩
  · exact .inl named
  · exact .inr ⟨_, read, .inr (.inl rfl)⟩
  · exact .inr ⟨k, read, .inr (.inr kind)⟩

theorem IsDatum.scalar (datum : IsDatum v) : ∀ m, v ≠ .node m := by
  rintro m rfl
  cases datum

theorem IsDatum.ofText {p : Option Prefixes} (datum : IsDatum v)
    (kind : (classify p v).kind = .iri ∨ (classify p v).kind = .urn ∨
      (classify p v).kind = .blank) : ∃ k s, classify p v = .ofText k s ∧
      (k = .iri ∨ k = .urn ∨ k = .blank) := by
  have own : ∃ k s, classify p v = .ofText k s := by
    cases datum with
    | text s =>
      rcases classifyText_eq p s with ⟨k, x, read, -⟩ | ⟨k, read, -⟩
      · exact ⟨k, x, read⟩
      · exact ⟨k, s, read⟩
    | resource named s => exact ⟨_, s, rfl⟩
    | string s => exact ⟨_, s, rfl⟩
    | boolean b => simp [classify] at kind
    | whole n => simp [classify] at kind
    | tagged s l => simp [classify] at kind
  obtain ⟨k, s, read⟩ := own
  rw [read] at kind
  exact ⟨k, s, read, kind⟩

theorem agrees_subject (datum : IsDatum v) (settled : IsSettled (classify (some t) v))
    (unaliased : ∀ s, v = .text s → aliasCut? s.toList = none)
    (node : toNode (some t) "subject" v = .ok n) (h : n.turtle = .ok text) :
    wrap t v = text ∧ Agrees text n ∧
      ∀ lexical lang datatype, n ≠ .literal lexical lang datatype := by
  have kind : (classify (some t) v).kind = .iri ∨ (classify (some t) v).kind = .urn ∨
      (classify (some t) v).kind = .blank := by
    simpa using position_of_toNode datum.scalar node
  obtain ⟨k, s, term, named⟩ := datum.ofText kind
  have rendered : wrap t v = (classify (some t) v).render (some t) := by
    cases v with
    | text x =>
      rw [wrap, aliasParts, unaliased x rfl]
      simp
    | _ => rfl
  rw [rendered, term]
  exact agrees_resource datum.scalar term named (term ▸ settled) node h

theorem classifyText_type {p : Option Prefixes} {s : String} (letter : trim s = "a") :
    ¬((classifyText p s).kind = .iri ∨ (classifyText p s).kind = .urn) := by
  have same : expandWith p "a" = "a" := by cases p <;> rfl
  have absolute : Url.isAbsolute "a" = false := by decide
  have urn : Shape.isUrn "a" = false := by decide
  have iri : Shape.isIri "a" = false := by decide
  have bare : unbracket "a" = "a" := by decide
  unfold classifyText
  simp only [letter, bare, same, absolute, urn, iri, Bool.false_and, Bool.false_eq_true, if_false]
  split
  · simp [Term.ofText, Term.plain]
  · split
    · simp [Term.ofText, Term.plain]
    · split <;> simp [Term.ofText, Term.plain]

theorem agrees_predicate (datum : IsDatum v) (settled : IsSettled (classify (some t) v))
    (node : toNode (some t) "predicate" v = .ok n) (uri : n.isUri) (h : n.turtle = .ok text) :
    Write.predicate t v = text ∧ Agrees text n := by
  have kind : (classify (some t) v).kind = .iri ∨ (classify (some t) v).kind = .urn ∨
      (classify (some t) v).kind = .blank := by
    simpa using position_of_toNode datum.scalar node
  obtain ⟨k, s, term, named⟩ := datum.ofText kind
  have resource : k = .iri ∨ k = .urn := by
    rcases named with iri | urn | rfl
    · exact .inl iri
    · exact .inr urn
    · obtain rfl := Except.ok.inj ((toNode_blank datum.scalar term).symm.trans node)
      cases uri
  obtain ⟨rendered, agrees, -⟩ :=
    agrees_resource datum.scalar term named (term ▸ settled) node h
  have other : v.chars?.map trim ≠ some "a" := by
    cases v with
    | text x =>
      intro letter
      have kind : (classifyText (some t) x).kind = k := congrArg Term.kind term
      exact classifyText_type (Option.some.inj letter) (kind ▸ resource)
    | node m => exact absurd rfl (datum.scalar m)
    | _ => simp [Value.chars?]
  refine ⟨?_, agrees⟩
  rw [Write.predicate, if_neg other, term, ← rendered]
  rcases resource with rfl | rfl <;> rfl

/-! Objects. -/

theorem ofText_plain (s : String) (l : Option String) :
    Literal.ofText s l none = .literal s l none := by
  simp [Literal.ofText, Literal.spaced]

theorem agrees_quoted (s : String) : Agrees (doubleQuoted s) (.literal s none none) :=
  ⟨rfl, fun _ => trivial⟩

theorem agrees_string {s : String} (h : Literal.make (.text s) none none = .ok n) :
    Agrees (doubleQuoted s) n := by
  obtain rfl : Literal.ofText s none none = n := Except.ok.inj h
  rw [ofText_plain]
  exact agrees_quoted s

theorem agrees_tagged {s l : String} (line : l.toList.getLast? ≠ some '\n')
    (h : Literal.make (.text s) (some l) none = .ok n) :
    Agrees (dataValue (some t) (.term .string (.text s) (.text l) .null)) n := by
  by_cases empty : l = ""
  · subst empty
    exact agrees_string h
  · have kept : (some l).filter (· ≠ "") = some l := by simp [empty]
    have written : dataValue (some t) (.term .string (.text s) (.text l) .null) =
        doubleQuoted s ++ "@" ++ l := by
      simp [dataValue, Term.render, Value.truth, empty]
    unfold Literal.make at h
    simp only [kept] at h
    split at h
    · cases h
    · split at h
      · cases h
      · rename_i checked
        obtain rfl := Except.ok.inj h
        have tag : IsTag l.toList := isTag_of_isLanguageTag (by simpa using checked) line
        rw [ofText_plain, written, String.append_assoc]
        exact ⟨congrArg Except.ok (annotate_tag _ empty), fun d => tag⟩

/-- What an object is written as in an update is read as its node, which has a line as well. -/
structure IsRead (text : String) (n : Node) : Prop where
  lines : Writable .lines n
  update : ∀ s, object? .update (spelled .update text ++ ' ' :: s) = some (n, ' ' :: s)

theorem Agrees.isRead (agrees : Agrees text n) : IsRead text n :=
  ⟨agrees.writable .lines, fun _ => object?_ntriples (agrees.writable .update) agrees.written⟩

theorem isRead_boolean (b : Bool) :
    IsRead (if b then "true" else "false")
      (.literal (if b then "true" else "false") none (some (xsd "boolean"))) := by
  have datatype : Writable .lines (.literal "" none (some (xsd "boolean"))) :=
    ⟨by decide, by decide⟩
  cases b with
  | false => exact ⟨datatype, fun s => rfl⟩
  | true => exact ⟨datatype, fun s => rfl⟩

theorem isWhole_intText (n : Int) : isWhole (intText n).toList = true ∧
    ∀ c ∈ (intText n).toList, c.isDigit ∨ c = '-' := by
  have filled : (natText n.natAbs).toList ≠ [] := by
    rw [natText, String.toList_ofList]
    exact Nat.toDigits_ne_nil
  have digits : ∀ c ∈ (natText n.natAbs).toList, c.isDigit := by
    intro c member
    rw [natText, String.toList_ofList] at member
    exact Nat.isDigit_of_mem_toDigits (by decide) (by decide) member
  unfold intText
  split
  · rw [String.toList_append]
    refine ⟨by simp [isWhole, filled]; exact digits, fun c member => ?_⟩
    rcases List.mem_append.1 member with sign | digit
    · exact .inr (List.mem_singleton.1 sign)
    · exact .inl (digits c digit)
  · refine ⟨?_, fun c member => .inl (digits c member)⟩
    have unsigned (x : Char) (other : x.isDigit = false) :
        (natText n.natAbs).toList.head? ≠ some x := by
      intro first
      have digit := digits x (List.mem_of_head? first)
      rw [other] at digit
      cases digit
    simp [isWhole, unsigned '+' (by decide), unsigned '-' (by decide), filled]
    exact digits

theorem object?_word {c : Char} {s : List Char} (other : c ≠ '"' ∧ c ≠ '<' ∧ c ≠ '_') :
    object? .update (c :: s) = word? (c :: s) := by
  simp [object?, resource?, iri?, other]

theorem word?_whole {w s : List Char} (whole : isWhole w = true)
    (solid : ∀ c ∈ w, isGap .update c = false) : word? (w ++ ' ' :: s) =
      some (.literal (String.ofList w) none (some (xsd "integer")), ' ' :: s) := by
  have run : (w ++ ' ' :: s).takeWhile (!isGap .update ·) = w :=
    takeWhile_append_of_stop (by simpa using solid) (by simp [isGap])
  have other : ¬((decide (w = "true".toList) || decide (w = "false".toList)) = true) := by
    simp only [Bool.or_eq_true, decide_eq_true_eq]
    rintro (rfl | rfl) <;> exact absurd whole (by decide)
  unfold word?
  simp only [run]
  rw [if_neg other, if_pos whole, List.drop_left]

theorem isRead_whole (n : Int) :
    IsRead (intText n) (.literal (intText n) none (some (xsd "integer"))) := by
  obtain ⟨whole, chars⟩ := isWhole_intText n
  have ne {c : Char} (member : c ∈ (intText n).toList) {x : Char}
      (other : ¬(x.isDigit ∨ x = '-')) : c ≠ x := by
    rintro rfl
    exact other (chars c member)
  refine ⟨⟨by decide, by decide⟩, fun s => ?_⟩
  have solid : ∀ c ∈ (intText n).toList, isGap .update c = false := by
    intro c member
    simp [isGap, ne member (x := ' ') (by decide), ne member (x := '\t') (by decide),
      ne member (x := '\n') (by decide), ne member (x := '\r') (by decide)]
  have word := word?_whole (s := s) whole solid
  rw [String.ofList_toList] at word
  rw [spelled_update, ← word]
  cases split : (intText n).toList with
  | nil =>
    rw [split] at whole
    cases whole
  | cons c w =>
    have first : c ∈ (intText n).toList := split ▸ List.mem_cons_self ..
    exact object?_word ⟨ne first (by decide), ne first (by decide), ne first (by decide)⟩

theorem isRead_resource {k : TermKind} {s : String} (datum : IsDatum v)
    (term : classify (some t) v = .ofText k s) (kind : k = .iri ∨ k = .urn ∨ k = .blank)
    (settled : IsSettled (.ofText k s)) (node : toNode (some t) "object" v = .ok n)
    (h : n.ntriples = .ok text) : IsRead (dataValue (some t) v) n := by
  have written : dataValue (some t) v = (Term.ofText k s).render (some t) := by
    have other : k ≠ .raw ∧ k ≠ .compact := by
      rcases kind with rfl | rfl | rfl <;> decide
    cases datum with
    | text x =>
      have read : classifyText (some t) x = .ofText k s := term
      simp [dataValue, read, Term.ofText, Term.plain, other]
    | _ => exact congrArg (Term.render (some t)) term
  have turtle : n.turtle = .ok text := by
    rcases kind with iri | urn | rfl
    · obtain rfl := Except.ok.inj ((toNode_resource datum.scalar term (.inl iri)).symm.trans node)
      exact h
    · obtain rfl := Except.ok.inj ((toNode_resource datum.scalar term (.inr urn)).symm.trans node)
      exact h
    · obtain rfl := Except.ok.inj ((toNode_blank datum.scalar term).symm.trans node)
      exact h
  obtain ⟨rendered, agrees, -⟩ := agrees_resource datum.scalar term kind settled node turtle
  rw [written, rendered]
  exact agrees.isRead

theorem isRead_text {k : TermKind} {s : String} (term : classifyText (some t) s = .ofText k s)
    (kind : k = .variable ∨ k = .compact ∨ k = .raw)
    (node : toNode (some t) "object" (.text s) = .ok n) :
    IsRead (dataValue (some t) (.text s)) n := by
  have classified : classify (some t) (.text s) = .ofText k s := term
  rcases kind with rfl | plain
  · simp [toNode, classified, Term.ofText, Term.plain, CompilationError.fail] at node
  · have made : Literal.make (.text s) none none = .ok n := by
      rcases plain with rfl | rfl <;>
        simpa [toNode, classified, Term.ofText, Term.plain] using node
    have written : dataValue (some t) (.text s) = doubleQuoted s := by
      rcases plain with rfl | rfl <;>
        simp [dataValue, classified, Term.ofText, Term.plain, Term.render, Value.truth]
    rw [written]
    exact (agrees_string made).isRead

theorem isRead_object (datum : IsDatum v) (settled : IsSettled (classify (some t) v))
    (node : toNode (some t) "object" v = .ok n) (h : n.ntriples = .ok text) :
    IsRead (dataValue (some t) v) n := by
  cases datum with
  | text s =>
    rcases classifyText_eq (some t) s with ⟨k, x, term, kind⟩ | ⟨k, term, rfl | other⟩
    · have named : k = .iri ∨ k = .urn ∨ k = .blank := kind.imp_right .inl
      exact isRead_resource (.text s) term named (term ▸ settled) node h
    · exact isRead_resource (.text s) term (.inr (.inr rfl)) (term ▸ settled) node h
    · exact isRead_text term other node
  | resource named s => exact isRead_resource (.resource named s) rfl named settled node h
  | boolean b =>
    obtain rfl : .literal (if b then "true" else "false") none (some (xsd "boolean")) = n :=
      Except.ok.inj node
    exact isRead_boolean b
  | whole m =>
    obtain rfl : .literal (intText m) none (some (xsd "integer")) = n := Except.ok.inj node
    exact isRead_whole m
  | string s => exact (agrees_string node).isRead
  | tagged s l => exact (agrees_tagged settled node).isRead

end

/-! Triples. -/

def AllTriples (P : Value → Value → Value → Prop) (triples : Value) : Prop :=
  ∀ vs, triples.members = .ok vs → ∀ v ∈ vs, ∀ s q o, v.triple = .ok (s, q, o) → P s q o

/-- The triple is written in the same way on both sides. -/
structure IsSettledTriple (t : Prefixes) (s q o : Value) : Prop where
  subject : IsSettled (classify (some t) s)
  unaliased : ∀ x, s = .text x → aliasCut? x.toList = none
  predicate : IsSettled (classify (some t) q)
  object : IsSettled (classify (some t) o)

theorem triple_of_both {t : Prefixes} {v s q o : Value} {nodes : Triple} {line : String}
    (parts : v.triple = .ok (s, q, o)) (data : IsDatum s ∧ IsDatum q ∧ IsDatum o)
    (settled : IsSettledTriple t s q o) (denoted : nodesOf (some t) v = .ok nodes)
    (own : IsLine nodes line) : IsGrammatical nodes ∧ ∀ rest,
      triple? .update (spelled .update (Update.dataTriple t s q o) ++ rest) =
        some (nodes, rest) := by
  obtain ⟨⟨_, _, _⟩, same, denoted⟩ := Outcome.bind_eq_ok_iff.1 denoted
  obtain ⟨rfl, rfl, rfl⟩ : s = _ ∧ q = _ ∧ o = _ := by
    simpa using Except.ok.inj (parts.symm.trans same)
  obtain ⟨subject, first, denoted⟩ := Outcome.bind_eq_ok_iff.1 denoted
  obtain ⟨predicate, second, denoted⟩ := Outcome.bind_eq_ok_iff.1 denoted
  obtain ⟨object, third, denoted⟩ := Outcome.bind_eq_ok_iff.1 denoted
  obtain rfl := Outcome.pure_eq_ok_iff.1 denoted
  obtain ⟨uri, st, qt, ot, hs, hq, ho, -⟩ := own
  obtain ⟨wrapped, subjects, resource⟩ :=
    agrees_subject data.1 settled.subject settled.unaliased first hs
  obtain ⟨named, predicates⟩ := agrees_predicate data.2.1 settled.predicate second uri hq
  have objects := isRead_object data.2.2 settled.object third ho
  refine ⟨⟨subjects.writable .lines, resource, predicates.writable .lines, objects.lines⟩,
    triple?_spelled (fun r => ?_) (fun r => ?_) objects.update⟩
  · rw [wrapped]
    exact resource?_turtle (subjects.writable .update) resource hs
  · rw [named]
    exact iri?_turtle (predicates.writable .update) uri hq

theorem triplesUntil?_lines {ts : List Triple} {lines : List String} {fuel : Nat}
    (each : List.Forall₂ (fun t line => ∀ rest,
      triple? .update (spelled .update line ++ rest) = some (t, rest)) ts lines)
    (enough : lines.length < fuel) :
    triplesUntil? fuel (lines.flatMap (fun l => ' ' :: l.toList) ++ [' ', '\x7d']) = some ts := by
  induction each generalizing fuel with
  | nil =>
    cases fuel with
    | zero => cases enough
    | succ fuel => rfl
  | @cons t line ts lines first _ ih =>
    cases fuel with
    | zero => cases enough
    | succ fuel =>
      have read := first (lines.flatMap (fun l => ' ' :: l.toList) ++ [' ', '\x7d'])
      rw [spelled_update] at read
      have behind := ih (Nat.lt_of_succ_lt_succ enough)
      rw [List.flatMap_cons, List.cons_append, List.cons_append, List.append_assoc, triplesUntil?,
        skip_blank, skip_of_triple? read]
      split
      · rename_i rest brace
        rw [brace] at read
        cases read
      · rw [read]
        simp only [Option.bind_some, behind]
        rfl

theorem toList_intercalate_blank {line : String} {lines : List String} :
    ' ' :: (String.intercalate " " (line :: lines)).toList =
      (line :: lines).flatMap fun l => ' ' :: l.toList := by
  induction lines generalizing line with
  | nil => simp
  | cons next lines ih =>
    rw [String.intercalate_cons_cons, String.toList_append, String.toList_append,
      List.flatMap_cons, ← ih]
    simp

theorem insertData_eq_ok {t : Prefixes} {triples graph : Value} {update : String}
    (plain : graph.truth = false) (h : Update.insertData t triples graph = .ok update) :
    ∃ vs updates, triples.members = .ok vs ∧
      List.Forall₂ (fun v line => ∃ s q o, v.triple = .ok (s, q, o) ∧
        line = Update.dataTriple t s q o) vs updates ∧
      update.toList = "INSERT DATA \x7b".toList ++
        (updates.flatMap (fun l => ' ' :: l.toList) ++ [' ', '\x7d']) := by
  obtain ⟨vs, members, h⟩ := Outcome.bind_eq_ok_iff.1 h
  obtain ⟨updates, written, h⟩ := Outcome.bind_eq_ok_iff.1 h
  obtain ⟨block, filled, h⟩ := Outcome.bind_eq_ok_iff.1 h
  obtain ⟨body, inside, h⟩ := Outcome.bind_eq_ok_iff.1 h
  obtain rfl := Outcome.pure_eq_ok_iff.1 h
  have same : body = block := by
    simpa [Update.graphBlock, plain, Outcome.pure_eq_ok_iff] using inside
  refine ⟨vs, updates, members, (Outcome.forall₂_of_mapM written).imp ?_, ?_⟩
  · intro v line made
    obtain ⟨⟨s, q, o⟩, parts, made⟩ := Outcome.bind_eq_ok_iff.1 made
    exact ⟨s, q, o, parts, Outcome.pure_eq_ok_iff.1 made⟩
  · cases updates with
    | nil => cases filled
    | cons line updates =>
      obtain rfl : String.intercalate " " (line :: updates) = block := Except.ok.inj filled
      rw [← toList_intercalate_blank, same]
      simp [inBraces]

theorem inserted?_eq {text : String} {s : List Char}
    (h : text.toList = "INSERT DATA \x7b".toList ++ s) :
    inserted? text = triplesUntil? s.length s := by
  rw [inserted?, h]
  rfl

/-- Where values are settled, both texts are read as the same triples. The names are read with the
table as it is given; only an empty table stands for another one. -/
theorem data_of_both {t : Prefixes} {triples graph : Value} {update upload : String}
    (data : AllTriples (fun s q o => IsDatum s ∧ IsDatum q ∧ IsDatum o) triples)
    (settled : AllTriples (IsSettledTriple t) triples) (filled : t.entries ≠ [])
    (plain : graph.truth = false)
    (insertion : Update.insertData t.orStandard triples graph = .ok update)
    (serialized : serializeTriples (some t) triples = .ok upload) :
    ∃ vs ts, triples.members = .ok vs ∧ vs.mapM (nodesOf (some t)) = .ok ts ∧
      inserted? update = some ts ∧ document? upload = some ts := by
  have table : t.orStandard = t := by simp [Prefixes.orStandard, filled]
  rw [table] at insertion
  obtain ⟨vs, ts, lines, members, nodes, own, rfl⟩ := isLine_of_serialized serialized
  obtain ⟨vs', updates, members', written, text⟩ := insertData_eq_ok plain insertion
  obtain rfl := Except.ok.inj (members.symm.trans members')
  have lined : ∀ nodes ∈ ts, ∃ line, IsLine nodes line := by
    intro nodes member
    obtain ⟨line, -, written⟩ := forall₂_left own member
    exact ⟨line, written⟩
  have both : List.Forall₂ (fun nodes line => IsGrammatical nodes ∧ ∀ rest,
      triple? .update (spelled .update line ++ rest) = some (nodes, rest)) ts updates := by
    refine forall₂_of_forall_mem ((forall₂_join (Outcome.forall₂_of_mapM nodes) written).imp ?_)
      lined
    rintro denoted _ ⟨v, member, node, s, q, o, parts, rfl⟩ ⟨line, written⟩
    exact triple_of_both parts (data vs members v member s q o parts)
      (settled vs members v member s q o parts) node written
  have grammatical : ∀ nodes ∈ ts, IsGrammatical nodes := by
    intro nodes member
    obtain ⟨_, -, first, -⟩ := forall₂_left both member
    exact first
  refine ⟨vs, ts, members, nodes, ?_, ?_⟩
  · rw [inserted?_eq text]
    refine triplesUntil?_lines (both.imp fun _ _ read => read.2) ?_
    rw [List.length_append]
    exact Nat.lt_of_le_of_lt (length_le_flatMap_cons updates) (Nat.lt_add_of_pos_right (by decide))
  · exact document?_lines (forall₂_of_forall_mem (statement?_of_lines own) grammatical)

theorem data_of_both_tagged : ∃ update upload,
    Update.insertData .standard (.list [.list [.text "http://h/s", .text "http://h/p",
      .term .string (.text "ü\n") (.text "de") .null]]) .null = .ok update ∧
    serializeTriples (some .standard) (.list [.list [.text "http://h/s", .text "http://h/p",
      .term .string (.text "ü\n") (.text "de") .null]]) = .ok upload ∧
    inserted? update =
      some [(.uri "http://h/s", .uri "http://h/p", .literal "ü\n" (some "de") none)] ∧
    document? upload =
      some [(.uri "http://h/s", .uri "http://h/p", .literal "ü\n" (some "de") none)] := by
  have insertion : Update.insertData Prefixes.standard.orStandard (.list [.list
      [.text "http://h/s", .text "http://h/p", .term .string (.text "ü\n") (.text "de") .null]])
      .null = .ok "INSERT DATA \x7b <http://h/s> <http://h/p> \"ü\\n\"@de . \x7d" := by
    decide +kernel
  have serialized : serializeTriples (some .standard) (.list [.list [.text "http://h/s",
      .text "http://h/p", .term .string (.text "ü\n") (.text "de") .null]]) =
      .ok "<http://h/s> <http://h/p> \"\\u00FC\\n\"@de .\n" := by decide +kernel
  have name {i : String} (iri : classify (some .standard) (.text i) = .ofText .iri i)
      (normal : IsNormal i) : IsSettled (classify (some .standard) (.text i)) := by
    rw [iri]
    exact normal
  have subject := name (i := "http://h/s") rfl ⟨by decide +kernel, by decide⟩
  have predicate := name (i := "http://h/p") rfl ⟨by decide +kernel, by decide⟩
  obtain ⟨vs, ts, members, nodes, read⟩ := data_of_both (t := .standard)
    (by
      rintro vs ⟨⟩ v member s q o parts
      obtain rfl := List.mem_singleton.1 member
      cases parts
      exact ⟨.text _, .text _, .tagged _ _⟩)
    (by
      rintro vs ⟨⟩ v member s q o parts
      obtain rfl := List.mem_singleton.1 member
      cases parts
      refine ⟨subject, ?_, predicate, ?_⟩
      · rintro x ⟨⟩
        decide
      · change "de".toList.getLast? ≠ some '\n'
        decide)
    (by decide) (by rfl) insertion serialized
  obtain rfl := Except.ok.inj members
  obtain rfl := Except.ok.inj nodes
  exact ⟨_, _, insertion, serialized, read⟩

/-- A name with a doubled slash gets another one in an update, so that the data is not the same. -/
theorem exists_name_of_two : ∃ subject update upload,
    Update.insertData Prefixes.standard
      (.list [.list [.text subject, .text "http://h/p", .text "x"]]) .null = .ok update ∧
    serializeTriples (some .standard)
      (.list [.list [.text subject, .text "http://h/p", .text "x"]]) = .ok upload ∧
    inserted? update = some [(.uri "http://h/a", .uri "http://h/p", .literal "x" none none)] ∧
    document? upload = some [(.uri "http://h//a", .uri "http://h/p", .literal "x" none none)] :=
  ⟨"http://h//a", "INSERT DATA \x7b <http://h/a> <http://h/p> \"x\" . \x7d",
    "<http://h//a> <http://h/p> \"x\" .\n", by decide +kernel, by decide +kernel,
    by decide +kernel, by decide +kernel⟩

end SparqlClient.Rdf
