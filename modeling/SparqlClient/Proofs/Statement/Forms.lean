import SparqlClient.Proofs.Connection.Calls
import SparqlClient.Proofs.Query.Parts
import SparqlClient.Proofs.Statement.Prologue

/-! Texts that are written and how they are classified. Every form starts with its own word, some
updates behind the declaration of their graph. Main statement: behind any prologue a text is
classified as the form that has written it, and is sent where that form belongs. -/

namespace SparqlClient

open Statement Text

def Form.kind : Form → StatementKind
  | .select => .select
  | .ask => .ask
  | .construct _ => .construct
  | .describe _ => .describe
  | .insertWhere _ | .deleteWhere _ | .deleteInsert .. => .update

/-- Everything that is written as a statement. -/
inductive Writing
  | query (s : QuerySpec) (form : Form)
  | insertData (triples graph : Value)
  | deleteData (triples graph : Value)
  | deleteBatch (resources graph : Value)
  | insertBatch (records graph table : Value)
  | load (source graph : Value) (silent : Bool)
  | clear (target : Value) (silent : Bool)
  | drop (target : Value) (silent : Bool)
  | create (graph : Value) (silent : Bool)
  | transfer (operation source target : Value) (silent : Bool)

namespace Writing

def text (p : Prefixes) : Writing → Outcome String
  | .query s form => (s.write p form).map Fragment.text
  | .insertData triples graph => Update.insertData p triples graph
  | .deleteData triples graph => Update.deleteData p triples graph
  | .deleteBatch resources graph => Update.deleteBatch p resources graph
  | .insertBatch records graph table => Update.insertBatch p records graph table
  | .load source graph silent => Update.load source graph silent
  | .clear target silent => Update.clear target silent
  | .drop target silent => Update.drop target silent
  | .create graph silent => Update.create graph silent
  | .transfer operation source target silent => Update.transfer operation source target silent

def kind : Writing → StatementKind
  | .query _ form => form.kind
  | _ => .update

def target : Writing → Value
  | .query s _ => s.graph
  | .deleteBatch _ graph => graph
  | _ => .null

end Writing

/-- The IRI that is written for a graph ends with the bracket that is written behind it. -/
def IsClosed (graph : Value) : Prop := ∀ i, normalizeIriValue graph = .ok i → '>' ∉ i.toList

theorem isClosed_of_text {graph : Value} (h : ∀ s, onlyText graph = .ok s → '>' ∉ s.toList) :
    IsClosed graph := by
  intro i named
  obtain ⟨s, text, rfl⟩ := Outcome.map_eq_ok_iff.1 named
  have bare (l : List Char) : dropClosing (dropOpening l) ⊆ l := by
    have opened : dropOpening l ⊆ l := by
      unfold dropOpening
      split
      · exact List.subset_cons_self ..
      · exact List.Subset.refl _
    unfold dropClosing
    split
    · exact List.Subset.trans (List.dropLast_subset _) opened
    · exact opened
  have trimmed : trimBy isBlank s.toList ⊆ s.toList := (isInfix_trimBy isBlank s.toList).subset
  rw [normalizeIri, String.toList_ofList]
  have kept : ∀ c ∈ normalizeIriChars (dropClosing (dropOpening (trimBy isBlank s.toList))),
      c ≠ '>' :=
    (forall_mem_normalizeIriChars (by decide)).2 fun c inside => by
      rintro rfl
      exact h s text (trimmed (bare _ inside))
  exact fun inside => kept '>' inside rfl

def updateWords : List String :=
  ["INSERT", "DELETE", "LOAD", "CLEAR", "DROP", "CREATE", "COPY", "MOVE", "ADD"]

/-- The first words of the forms. -/
def leadingWords : List (String × StatementKind) :=
  [("SELECT", .select), ("ASK", .ask), ("CONSTRUCT", .construct), ("DESCRIBE", .describe)] ++
    updateWords.map (·, .update)

def Heads (word text : String) : Prop := ∃ rest, text.toList = word.toList ++ ' ' :: rest

theorem Heads.append {word text : String} (h : Heads word text) (more : String) :
    Heads word (text ++ more) := by
  obtain ⟨rest, h⟩ := h
  exact ⟨rest ++ more.toList, by simp [h]⟩

theorem heads_blank (word rest : String) : Heads word (word ++ " " ++ rest) :=
  ⟨rest.toList, by simp⟩

theorem Heads.intercalate {word text : String} (h : Heads word text) (more : List String) :
    Heads word (String.intercalate " " (text :: more)) := by
  cases more with
  | nil => simpa using h
  | cons x more =>
    rw [String.intercalate_cons_cons, String.append_assoc]
    exact h.append _

/-- The text is a statement of a form, maybe behind a prologue of its own. -/
def Opens (kind : StatementKind) (text : String) : Prop :=
  ∃ front statement, text = front ++ statement ∧ IsPrologue front.toList ∧
    IsStatement statement.toList ∧ .ofBody statement.toList = kind

theorem Opens.statementKind {kind : StatementKind} {prologue text : String}
    (hp : IsPrologue prologue.toList) (h : Opens kind text) :
    statementKind (prologue ++ text) = kind := by
  obtain ⟨front, statement, rfl, hf, hs, rfl⟩ := h
  have whole : IsPrologue (prologue ++ front).toList := by
    rw [String.toList_append]
    exact hp.append hf
  rw [← String.append_assoc, statementKind_append whole hs]

theorem Heads.opens {word text : String} {kind : StatementKind} (h : Heads word text)
    (known : (word, kind) ∈ leadingWords) : Opens kind text := by
  have all : ∀ e ∈ leadingWords, e.1.toList ≠ [] ∧ (∀ c ∈ e.1.toList, c.isAlpha) ∧
      e.1.toList.map Char.toLower ∉ declarationWords ∧ .ofBody e.1.toList = e.2 := by
    decide +kernel
  obtain ⟨present, letters, ordinary, form⟩ := all _ known
  obtain ⟨rest, h⟩ := h
  have words : ∀ c ∈ word.toList, isWord c := fun c member => isWord_of_isAlpha (letters c member)
  have first : text.toList.takeWhile isWord = word.toList := by
    rw [h]
    exact takeWhile_append_of_stop words (by simp; decide)
  have alone : word.toList.takeWhile isWord = word.toList := by
    have whole : (word.toList ++ []).takeWhile isWord = word.toList :=
      takeWhile_append_of_stop words (by simp)
    simpa using whole
  refine ⟨"", text, by simp, .nil, ⟨?_, ?_, ?_⟩, ?_⟩
  · rwa [first]
  · rwa [first]
  · rwa [first]
  · rw [StatementKind.ofBody_congr (first.trans alone.symm), form]

theorem Heads.opens_behind {word text i : String} (h : Heads word text) (closed : '>' ∉ i.toList)
    (known : (word, .update) ∈ leadingWords) :
    Opens .update ("WITH " ++ ("<" ++ i ++ ">") ++ " " ++ text) := by
  obtain ⟨front, statement, rfl, hf, hs, form⟩ := h.opens known
  refine ⟨"WITH " ++ ("<" ++ i ++ ">") ++ " " ++ front, statement, by simp [String.append_assoc],
    ?_, hs, form⟩
  have declared : IsDeclaration (['W', 'I', 'T', 'H'] ++ ([' '] ++ '<' :: (i.toList ++ ['>']))) :=
    .targeted (by decide) (by simp) (by decide) closed
  simpa using IsPrologue.declaration declared (.blank (c := ' ') (by decide) hf)

/-! The forms of a query. -/

namespace Compile

variable {p : Prefixes} {s : QuerySpec} {sc sc' : Scope} {f : Fragment}

theorem clauses_opens {word : String} {kind : StatementKind} {parts : List Fragment}
    (h : Heads word f.text) (known : (word, kind) ∈ leadingWords) :
    Opens kind (clauses (f :: parts)).text := by
  have present : f.text ≠ "" := by
    rintro empty
    obtain ⟨rest, h⟩ := h
    simp [empty] at h
  refine Heads.opens ?_ known
  simpa [clauses, Fragment.joinPresent, present] using h.intercalate _

theorem selectClause_heads {head : String} (h : Gives (selectClause p s) sc head sc') :
    Heads "SELECT" head := by
  unfold selectClause at h
  split at h
  · obtain ⟨counted, _, -, h⟩ := bind_gives.1 h
    obtain ⟨rfl, -⟩ := pure_gives.1 h
    exact heads_blank "SELECT" counted
  · have keyword (rest : String) :
        Heads "SELECT" ((if s.distinct then "SELECT DISTINCT " else "SELECT ") ++ rest) := by
      cases s.distinct with
      | false => exact heads_blank "SELECT" rest
      | true => exact heads_blank "SELECT" ("DISTINCT " ++ rest)
    simp only at h
    split at h
    · obtain ⟨rfl, -⟩ := pure_gives.1 h
      exact keyword "*"
    · obtain ⟨columns, _, -, h⟩ := bind_gives.1 h
      obtain ⟨rfl, -⟩ := pure_gives.1 h
      exact keyword _

theorem select_opens (h : Gives (select p s) sc f sc') : Opens .select f.text := by
  obtain ⟨head, _, written, h⟩ := bind_gives.1 h
  obtain ⟨groups, _, -, h⟩ := bind_gives.1 h
  obtain ⟨havings, _, -, h⟩ := bind_gives.1 h
  obtain ⟨orders, _, -, h⟩ := bind_gives.1 h
  obtain ⟨body, _, -, h⟩ := bind_gives.1 h
  obtain ⟨source, _, -, h⟩ := bind_gives.1 h
  obtain ⟨slice, _, -, h⟩ := bind_gives.1 h
  obtain ⟨rfl, -⟩ := pure_gives.1 h
  exact clauses_opens (selectClause_heads written) (by decide)

theorem ask_opens (h : Gives (ask p s) sc f sc') : Opens .ask f.text := by
  obtain ⟨body, _, -, h⟩ := bind_gives.1 h
  obtain ⟨source, _, -, h⟩ := bind_gives.1 h
  obtain ⟨rfl, -⟩ := pure_gives.1 h
  have present : (whereText body).text ≠ "" := by
    intro empty
    have letters := congrArg String.toList empty
    simp [whereText] at letters
  have head : Heads "ASK" (clauses [.ofText "ASK", .ofText source, whereText body]).text := by
    by_cases none : source = ""
    · have text : (clauses [.ofText "ASK", .ofText source, whereText body]).text =
          "ASK" ++ " " ++ (whereText body).text := by
        simp [clauses, Fragment.joinPresent, none, present]
      rw [text]
      exact heads_blank _ _
    · have text : (clauses [.ofText "ASK", .ofText source, whereText body]).text =
          "ASK" ++ " " ++ (source ++ " " ++ (whereText body).text) := by
        simp [clauses, Fragment.joinPresent, none, present, String.append_assoc]
      rw [text]
      exact heads_blank _ _
  exact head.opens (by decide)

theorem construct_opens {given : Value} (h : Gives (construct p s given) sc f sc') :
    Opens .construct f.text := by
  rw [construct_eq] at h
  obtain ⟨orders, _, -, h⟩ := bind_gives.1 h
  obtain ⟨body, _, -, h⟩ := bind_gives.1 h
  obtain ⟨parts, _, -, h⟩ := bind_gives.1 h
  obtain ⟨source, _, -, h⟩ := bind_gives.1 h
  obtain ⟨slice, _, -, h⟩ := bind_gives.1 h
  obtain ⟨rfl, -⟩ := pure_gives.1 h
  exact clauses_opens (heads_blank "CONSTRUCT" _) (by decide)

theorem describe_opens {resources : Value} (h : Gives (describe p s resources) sc f sc') :
    Opens .describe f.text := by
  rw [describe_eq] at h
  obtain ⟨targets, _, -, h⟩ := bind_gives.1 h
  have head : Heads "DESCRIBE" ("DESCRIBE " ++ targets) := heads_blank "DESCRIBE" targets
  split at h
  · obtain ⟨rfl, -⟩ := pure_gives.1 h
    exact head.opens (by decide)
  · obtain ⟨body, _, -, h⟩ := bind_gives.1 h
    obtain ⟨source, _, -, h⟩ := bind_gives.1 h
    obtain ⟨slice, _, -, h⟩ := bind_gives.1 h
    obtain ⟨rfl, -⟩ := pure_gives.1 h
    exact clauses_opens head (by decide)

theorem graphClause_opens {word template : String} {graph : List String} (rest : List String)
    (said : graphClause s = .ok graph) (closed : IsClosed s.graph) (h : Heads word template)
    (known : (word, .update) ∈ leadingWords) :
    Opens .update (String.intercalate " " (graph ++ template :: rest)) := by
  have behind : Heads word (String.intercalate " " (template :: rest)) := h.intercalate rest
  unfold graphClause at said
  split at said
  · obtain ⟨angled, named, said⟩ := Outcome.bind_eq_ok_iff.1 said
    obtain ⟨i, iri, rfl⟩ := Outcome.map_eq_ok_iff.1 named
    obtain rfl := Outcome.pure_eq_ok_iff.1 said
    rw [List.singleton_append, String.intercalate_cons_cons]
    exact behind.opens_behind (closed i iri) known
  · obtain rfl := Outcome.pure_eq_ok_iff.1 said
    exact behind.opens known

theorem templateClause_eq_ok {word : String} {v : Value} {parts : List String}
    (h : templateClause p word v = .ok parts) :
    (v.isNull ∧ parts = []) ∨ ∃ template, Heads word template ∧ parts = [template] := by
  unfold templateClause at h
  split at h
  · rename_i null
    exact .inl ⟨null, Outcome.pure_eq_ok_iff.1 h⟩
  · obtain ⟨text, -, h⟩ := Outcome.bind_eq_ok_iff.1 h
    exact .inr ⟨_, heads_blank word _, Outcome.pure_eq_ok_iff.1 h⟩

theorem modify_opens {deleted inserted : Value} (closed : IsClosed s.graph)
    (h : Gives (modify p s deleted inserted) sc f sc') : Opens .update f.text := by
  obtain ⟨body, _, -, h₁⟩ := bind_gives.1 h
  obtain ⟨graph, _, said, h₂⟩ := bind_gives.1 h₁
  obtain ⟨delete, _, deletes, h₃⟩ := bind_gives.1 h₂
  obtain ⟨insert, _, inserts, h₄⟩ := bind_gives.1 h₃
  have behind {word template : String} (rest : List String) (head : Heads word template)
      (known : (word, .update) ∈ leadingWords) :=
    graphClause_opens rest (lift_gives.1 said).1 closed head known
  split at h₄
  · cases (lift_gives.1 h₄).1
  · rename_i some
    obtain ⟨rfl, -⟩ := pure_gives.1 h₄
    rw [text_join_plain]
    rcases templateClause_eq_ok (lift_gives.1 deletes).1 with ⟨noDelete, rfl⟩ | ⟨first, head, rfl⟩
    · rcases templateClause_eq_ok (lift_gives.1 inserts).1 with ⟨noInsert, rfl⟩ | ⟨first, head, rfl⟩
      · simp [noDelete, noInsert] at some
      · simpa using behind [(whereText body).text] head (by decide)
    · simpa using behind (insert ++ [(whereText body).text]) head (by decide)

theorem deleteSubjects_opens (closed : IsClosed s.graph)
    (h : Gives (deleteSubjects p s) sc f sc') : Opens .update f.text := by
  obtain ⟨body, _, -, h₁⟩ := bind_gives.1 h
  obtain ⟨graph, _, said, h₂⟩ := bind_gives.1 h₁
  obtain ⟨pattern, _, -, h₃⟩ := bind_gives.1 h₂
  obtain ⟨rfl, -⟩ := pure_gives.1 h₃
  have head : Heads "DELETE" ("DELETE " ++ Text.inBraces pattern) := heads_blank "DELETE" _
  rw [text_join_plain]
  simpa using graphClause_opens [(whereText (withPattern body pattern)).text]
    (lift_gives.1 said).1 closed head (by decide)

end Compile

theorem QuerySpec.write_opens {s : QuerySpec} {p : Prefixes} {form : Form} {f : Fragment}
    (closed : IsClosed s.graph) (h : s.write p form = .ok f) : Opens form.kind f.text := by
  cases form with
  | select =>
    obtain ⟨_, h⟩ := Compile.run_eq_ok h
    exact Compile.select_opens h
  | ask =>
    obtain ⟨_, h⟩ := Compile.run_eq_ok h
    exact Compile.ask_opens h
  | construct template =>
    obtain ⟨_, h⟩ := Compile.run_eq_ok h
    exact Compile.construct_opens h
  | describe resources =>
    obtain ⟨_, h⟩ := Compile.run_eq_ok h
    exact Compile.describe_opens h
  | insertWhere template =>
    obtain ⟨_, h⟩ := Compile.run_eq_ok h
    exact Compile.modify_opens closed h
  | deleteWhere template =>
    obtain ⟨_, h⟩ := Compile.run_eq_ok h
    split at h
    · exact Compile.deleteSubjects_opens closed h
    · exact Compile.modify_opens closed h
  | deleteInsert deleted inserted =>
    obtain ⟨_, h⟩ := Compile.run_eq_ok h
    exact Compile.modify_opens closed h

/-! Updates without a match. -/

namespace Update

variable {p : Prefixes} {text : String}

theorem dataUpdate_heads {word : String} {triples graph : Value}
    (h : dataUpdate word p triples graph = .ok text) : Heads word text := by
  obtain ⟨vs, -, h⟩ := Outcome.bind_eq_ok_iff.1 h
  obtain ⟨lines, -, h⟩ := Outcome.bind_eq_ok_iff.1 h
  obtain ⟨block, -, h⟩ := Outcome.bind_eq_ok_iff.1 h
  obtain ⟨body, -, h⟩ := Outcome.bind_eq_ok_iff.1 h
  obtain rfl := Outcome.pure_eq_ok_iff.1 h
  exact ⟨"DATA ".toList ++ (inBraces body).toList, by simp⟩

theorem insertBatch_heads {records graph table : Value}
    (h : insertBatch p records graph table = .ok text) : Heads "INSERT" text := by
  obtain ⟨members, -, h⟩ := Outcome.bind_eq_ok_iff.1 h
  obtain ⟨triples, -, h⟩ := Outcome.bind_eq_ok_iff.1 h
  simp only at h
  split at h
  · cases h
  · obtain ⟨body, -, h⟩ := Outcome.bind_eq_ok_iff.1 h
    obtain rfl := Outcome.pure_eq_ok_iff.1 h
    exact heads_blank "INSERT" ("DATA " ++ inBraces body)

theorem deleteBatch_opens {resources graph : Value} (closed : IsClosed graph)
    (h : deleteBatch p resources graph = .ok text) : Opens .update text := by
  obtain ⟨vs, -, h⟩ := Outcome.bind_eq_ok_iff.1 h
  simp only at h
  by_cases empty : (vs.map (wrap p)).isEmpty
  · rw [if_pos empty] at h
    cases h
  · rw [if_neg empty] at h
    have head (members : String) : Heads "DELETE" ("DELETE " ++ (inBraces "?s ?p ?o" ++
        (" WHERE " ++ inBraces members))) := heads_blank "DELETE" _
    split at h
    · obtain ⟨angled, named, h⟩ := Outcome.bind_eq_ok_iff.1 h
      obtain ⟨i, iri, rfl⟩ := Outcome.map_eq_ok_iff.1 named
      obtain rfl := Outcome.pure_eq_ok_iff.1 h
      simpa only [String.append_assoc] using
        (head _).opens_behind (closed i iri) (by decide)
    · obtain rfl := Outcome.pure_eq_ok_iff.1 h
      simpa only [String.append_assoc, String.empty_append] using (head _).opens (by decide)

theorem silent_heads (word : String) (silent : Bool) (rest : String) :
    Heads word (word ++ silently silent ++ " " ++ rest) := by
  cases silent with
  | false => exact ⟨rest.toList, by simp [silently]⟩
  | true => exact ⟨"SILENT ".toList ++ rest.toList, by simp [silently]⟩

theorem load_heads {source graph : Value} {silent : Bool}
    (h : load source graph silent = .ok text) : Heads "LOAD" text := by
  obtain ⟨angled, -, h⟩ := Outcome.bind_eq_ok_iff.1 h
  have head := silent_heads "LOAD" silent angled
  split at h
  · obtain ⟨into, -, h⟩ := Outcome.bind_eq_ok_iff.1 h
    obtain rfl := Outcome.pure_eq_ok_iff.1 h
    exact (head.append _).append _
  · obtain rfl := Outcome.pure_eq_ok_iff.1 h
    exact head

theorem graphRef_heads {word : String} {silent : Bool} {keywords : List String} {target : Value}
    (h : (graphRef keywords target).map (fun t => word ++ silently silent ++ " " ++ t) = .ok text) :
    Heads word text := by
  obtain ⟨t, -, rfl⟩ := Outcome.map_eq_ok_iff.1 h
  exact silent_heads word silent t

theorem create_heads {graph : Value} {silent : Bool} (h : create graph silent = .ok text) :
    Heads "CREATE" text := by
  obtain ⟨g, -, rfl⟩ := Outcome.map_eq_ok_iff.1 h
  have spaced : " GRAPH " = " " ++ "GRAPH " := by decide
  rw [spaced, ← String.append_assoc, String.append_assoc]
  exact silent_heads "CREATE" silent ("GRAPH " ++ g)

theorem transfer_heads {operation source target : Value} {silent : Bool}
    (h : transfer operation source target silent = .ok text) :
    ∃ word, (word, .update) ∈ leadingWords ∧ Heads word text := by
  obtain ⟨word, -, h⟩ := Outcome.bind_eq_ok_iff.1 h
  split at h
  · rename_i known
    obtain ⟨s, -, h⟩ := Outcome.bind_eq_ok_iff.1 h
    obtain ⟨t, -, h⟩ := Outcome.bind_eq_ok_iff.1 h
    obtain rfl := Outcome.pure_eq_ok_iff.1 h
    refine ⟨word, ?_, ((silent_heads word silent s).append _).append _⟩
    simp only [Bool.or_eq_true, decide_eq_true_eq] at known
    rcases known with (rfl | rfl) | rfl <;> decide
  · cases h

end Update

theorem Writing.opens {p : Prefixes} {w : Writing} {text : String} (closed : IsClosed w.target)
    (h : w.text p = .ok text) : Opens w.kind text := by
  have updates (word : String) (known : word ∈ updateWords) :
      (word, StatementKind.update) ∈ leadingWords :=
    List.mem_append_right _ (List.mem_map_of_mem known)
  cases w with
  | query s form =>
    obtain ⟨f, written, rfl⟩ := Outcome.map_eq_ok_iff.1 h
    exact QuerySpec.write_opens closed written
  | insertData triples graph =>
    exact (Update.dataUpdate_heads h).opens (updates "INSERT" (by decide))
  | deleteData triples graph =>
    exact (Update.dataUpdate_heads h).opens (updates "DELETE" (by decide))
  | deleteBatch resources graph => exact Update.deleteBatch_opens closed h
  | insertBatch records graph table =>
    exact (Update.insertBatch_heads h).opens (updates "INSERT" (by decide))
  | load source graph silent => exact (Update.load_heads h).opens (updates "LOAD" (by decide))
  | clear target silent => exact (Update.graphRef_heads h).opens (updates "CLEAR" (by decide))
  | drop target silent => exact (Update.graphRef_heads h).opens (updates "DROP" (by decide))
  | create graph silent => exact (Update.create_heads h).opens (updates "CREATE" (by decide))
  | transfer operation source target silent =>
    obtain ⟨word, known, head⟩ := Update.transfer_heads h
    exact head.opens known

namespace Connection

def endpointOf (c : Connection) (kind : StatementKind) : Outcome String :=
  if kind = .update then c.updateEndpoint else c.queryEndpoint

def addressed (c : Connection) (kind : StatementKind) (url text : String) : Request :=
  match kind with
  | .update => { Request.plain "POST" url (.float c.config.timeout) with
      payload := .form [("update", .text text)]
      headers := [("Content-Type", "application/x-www-form-urlencoded")] }
  | .construct | .describe => .ask url (.float c.config.timeout) text "application/n-triples"
  | _ => .ask url (.float c.config.timeout) text answerType

theorem runRequest_eq (c : Connection) (text : String) (values : Value) :
    c.runRequest text values = do
      let bound ← c.prepared text values
      let url ← c.endpointOf (statementKind text)
      return some (c.addressed (statementKind text) url bound) := by
  unfold runRequest selectRequest triplesRequest testRequest changeRequest resultsRequest
  simp only [Bool.false_eq_true, if_false]
  unfold updateRequest queryRequest endpointOf
  generalize statementKind text = kind
  cases c.prepared text values with
  | error e => cases kind <;> rfl
  | ok bound =>
    cases kind with
    | update => cases c.updateEndpoint <;> rfl
    | _ => cases c.queryEndpoint <;> rfl

end Connection

/-- Behind any prologue. The graph matters where it is declared in front of an update. -/
theorem statement_of_writing {prologue : String} (hp : IsPrologue prologue.toList) :
    (∀ statement : String, IsStatement statement.toList →
      stripPrologue (prologue ++ statement) = statement ∧
      statementKind (prologue ++ statement) = statementKind statement) ∧
    ∀ (p : Prefixes) (w : Writing) (text : String), IsClosed w.target → w.text p = .ok text →
      statementKind (prologue ++ text) = w.kind ∧
      ∀ (c : Connection) (values : Value),
        let plan : Outcome Request := do
          let bound ← c.prepared (prologue ++ text) values
          return c.addressed w.kind (← c.endpointOf w.kind) bound
        let ran := (Exchange.run (prologue ++ text) values).runOn c
        match plan with
        | .error e => ran.1 = .error e ∧ ran.2.session = c.session
        | .ok r => ran.2.session.sent = c.session.sent ++ [.request r] := by
  refine ⟨fun statement hs => ⟨stripPrologue_append hp hs, ?_⟩, fun p w text closed written => ?_⟩
  · have alone : statementKind ("" ++ statement) = _ := statementKind_append .nil hs
    rw [String.empty_append] at alone
    rw [statementKind_append hp hs, alone]
  · have kind := (Writing.opens closed written).statementKind hp
    refine ⟨kind, fun c values => ?_⟩
    intro plan ran
    have planned : c.runRequest (prologue ++ text) values = plan.map some := by
      simp only [c.runRequest_eq, kind, plan, Outcome.map_bind]
      rfl
    have sends := (Exchange.run_performs (c := c) (prologue ++ text) values).sends
    rw [planned] at sends
    cases known : plan with
    | error e =>
      rw [known] at sends
      exact sends
    | ok r =>
      rw [known] at sends
      exact congrArg Session.sent sends.2

theorem statement_of_writing_declared :
    IsPrologue "#\npreFix ex.-: <urn:x>BASE <urn:b>".toList ∧
    stripPrologue ("#\npreFix ex.-: <urn:x>BASE <urn:b>" ++ "ask\x7b\x7d") = "ask\x7b\x7d" ∧
    ∃ text, (Writing.deleteBatch (.list [.text "http://h/s"]) (.text "urn:g")).text .standard =
        .ok text ∧
      statementKind ("#\npreFix ex.-: <urn:x>BASE <urn:b>" ++ text) = .update := by
  have named : IsDeclaration ("preFix".toList ++ (" ".toList ++ ("ex.-".toList ++
      ':' :: (" ".toList ++ '<' :: ("urn:x".toList ++ ['>']))))) :=
    .named (by decide) (by decide) (by decide) (by decide +kernel) (by decide) (by decide)
  have based : IsDeclaration ("BASE".toList ++ (" ".toList ++ '<' :: ("urn:b".toList ++ ['>']))) :=
    .based (by decide) (by decide) (by decide) (by decide)
  have prologue : IsPrologue "#\npreFix ex.-: <urn:x>BASE <urn:b>".toList :=
    .comment (List.not_mem_nil) (.declaration named (.declaration based .nil))
  have statement : IsStatement "ask\x7b\x7d".toList :=
    ⟨by decide, by decide, by decide⟩
  have closed : IsClosed
      (Writing.deleteBatch (.list [.text "http://h/s"]) (.text "urn:g")).target := by
    refine isClosed_of_text fun s known => ?_
    obtain rfl : "urn:g" = s := Except.ok.inj known
    decide
  have written : (Writing.deleteBatch (.list [.text "http://h/s"]) (.text "urn:g")).text .standard =
      .ok ("WITH <urn:g> DELETE \x7b ?s ?p ?o \x7d WHERE \x7b ?s ?p ?o . " ++
        "FILTER(?s IN (<http://h/s>)) \x7d") := by
    decide +kernel
  obtain ⟨stripped, forms⟩ := statement_of_writing prologue
  exact ⟨prologue, (stripped _ statement).1, _, written, 
    (forms .standard _ _ closed written).1⟩

end SparqlClient
