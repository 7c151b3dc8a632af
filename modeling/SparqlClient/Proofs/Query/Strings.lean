import SparqlClient.Builder.Clauses
import SparqlClient.Proofs.Binding.Quoted
import SparqlClient.Proofs.Query.CatchAll
import SparqlClient.Proofs.Rdf.Written

/-! Texts that a query holds between quotes: the separator of an aggregate, and the language of a
text that is bound to a variable. Main statement: every form that writes one writes it as one
string whose content is the text, which asks for no value and hides none, exactly if the text has
no line feed. No check keeps line feeds out of a separator, and the check of languages lets one
through at the end. -/

namespace SparqlClient

open Text

/-- What is written in the body is written in the whole, from its first visible character on. -/
def Fragment.Carries (whole body : Fragment) : Prop :=
  ∀ c s, isBlank c = false → c :: s <:+: body.text.toList → c :: s <:+: whole.text.toList

namespace Fragment

theorem Carries.inside {whole body : Fragment} (h : body.text.toList <:+: whole.text.toList) :
    whole.Carries body :=
  fun _ _ _ inner => inner.trans h

theorem Carries.trans {a b c : Fragment} (h : a.Carries b) (k : b.Carries c) : a.Carries c :=
  fun d s visible inner => h d s visible (k d s visible inner)

end Fragment

theorem mem_intercalate (sep : String) {x : String} {l : List String} (h : x ∈ l) :
    x.toList <:+: (String.intercalate sep l).toList := by
  obtain ⟨a, b, rfl⟩ := List.append_of_mem h
  obtain ⟨before, front⟩ := exists_intercalate_suffix sep a (List.cons_ne_nil x b)
  obtain ⟨after, back⟩ := exists_intercalate_head sep x b
  rw [front, back, String.toList_append, String.toList_append, ← List.append_assoc]
  exact List.infix_append ..

theorem toList_infix_append (a b c : String) : b.toList <:+: (a ++ b ++ c).toList := by
  rw [String.toList_append, String.toList_append]
  exact List.infix_append ..

namespace Compile

variable {p : Prefixes} {q : QuerySpec} {s t : Scope} {f x : Fragment} {parts : List Fragment}

theorem join_carries (sep : String) (h : x ∈ parts) : (Fragment.join sep parts).Carries x :=
  .inside (mem_intercalate sep (List.mem_map_of_mem h))

theorem joinPresent_carries (sep : String) (h : x ∈ parts) :
    (Fragment.joinPresent sep parts).Carries x := by
  by_cases empty : x.text = ""
  · intro c s _ inner
    simp [empty] at inner
  · refine .inside (mem_intercalate sep (List.mem_filter.2 ⟨List.mem_map_of_mem h, ?_⟩))
    simpa using empty

theorem whereText_carries (body : Fragment) : (whereText body).Carries body := by
  refine .inside ⟨"WHERE \x7b ".toList, " \x7d".toList, ?_⟩
  simp [whereText, Fragment.inBraces, inBraces]

theorem withPattern_carries (body : Fragment) (subject : String) :
    (withPattern body (subject ++ " ?p ?o .")).Carries body := by
  intro c s visible inner
  obtain ⟨a, b, whole⟩ := inner
  have last : (body.text ++ " " ++ (subject ++ " ?p ?o .")).toList =
      (body.text ++ " " ++ (subject ++ " ?p ?o ")).toList ++ ['.'] := by
    simp only [String.toList_append, List.append_assoc]
    rfl
  have text : (body.text ++ " " ++ (subject ++ " ?p ?o .")).toList =
      a ++ c :: (s ++ (b ++ " ".toList ++ (subject ++ " ?p ?o .").toList)) := by
    rw [String.toList_append, String.toList_append, ← whole]
    simp only [List.append_assoc, List.cons_append]
  rw [withPattern, trim_eq_trimStart last (by decide), trimStartOf, String.toList_ofList, text,
    List.dropWhile_append, List.dropWhile_cons_of_neg (by simp [visible])]
  split
  · exact (List.prefix_append (c :: s) _).isInfix
  · exact ⟨a.dropWhile isBlank, _, List.append_assoc ..⟩

theorem bindText_carried {b : Bind} (hb : b ∈ q.binds) (h : Gives (body p q) s f t) :
    f.Carries (bindText b) := by
  obtain ⟨table, u, -, rest⟩ := bind_gives.1 h
  obtain ⟨conditions, v, -, behind⟩ := bind_gives.1 rest
  obtain ⟨needed, w, -, data⟩ := bind_gives.1 behind
  obtain ⟨values, x, -, last⟩ := bind_gives.1 data
  obtain ⟨rfl, rfl⟩ := pure_gives.1 last
  refine joinPresent_carries " " (List.mem_append_left _ (List.mem_append_right _ ?_))
  exact List.mem_map_of_mem hb

/-- A form that holds the body of its query. -/
def HoldsBody (p : Prefixes) (q : QuerySpec) (f : Fragment) : Prop :=
  ∃ u body v, Gives (Compile.body p q) u body v ∧ f.Carries body

theorem select_holds (h : Gives (select p q) s f t) : HoldsBody p q f := by
  obtain ⟨head, s₁, -, h₁⟩ := bind_gives.1 h
  obtain ⟨groups, s₂, -, h₂⟩ := bind_gives.1 h₁
  obtain ⟨havings, s₃, -, h₃⟩ := bind_gives.1 h₂
  obtain ⟨orders, s₄, -, h₄⟩ := bind_gives.1 h₃
  obtain ⟨body, s₅, compiled, h₅⟩ := bind_gives.1 h₄
  obtain ⟨source, s₆, -, h₆⟩ := bind_gives.1 h₅
  obtain ⟨slice, s₇, -, last⟩ := bind_gives.1 h₆
  obtain ⟨rfl, rfl⟩ := pure_gives.1 last
  exact ⟨_, _, _, compiled, (joinPresent_carries " " (by simp)).trans (whereText_carries body)⟩

theorem ask_holds (h : Gives (ask p q) s f t) : HoldsBody p q f := by
  obtain ⟨body, s₁, compiled, h₁⟩ := bind_gives.1 h
  obtain ⟨source, s₂, -, last⟩ := bind_gives.1 h₁
  obtain ⟨rfl, rfl⟩ := pure_gives.1 last
  exact ⟨_, _, _, compiled, (joinPresent_carries " " (by simp)).trans (whereText_carries body)⟩

theorem constructParts_carries {given : Value} {body : Fragment} {parts : String × Fragment}
    (h : Gives (constructParts p given body) s parts t) : parts.2.Carries body := by
  unfold constructParts at h
  split at h
  · obtain ⟨pattern, u, written, last⟩ := bind_gives.1 h
    obtain ⟨rfl, rfl⟩ := anyTriple_gives.1 written
    obtain ⟨rfl, rfl⟩ := pure_gives.1 last
    exact withPattern_carries body t.subject
  · obtain ⟨head, u, -, last⟩ := bind_gives.1 h
    obtain ⟨rfl, rfl⟩ := pure_gives.1 last
    exact .inside (List.infix_refl _)

theorem construct_holds {given : Value} (h : Gives (construct p q given) s f t) :
    HoldsBody p q f := by
  rw [construct_eq] at h
  obtain ⟨orders, s₁, -, h₁⟩ := bind_gives.1 h
  obtain ⟨body, s₂, compiled, h₂⟩ := bind_gives.1 h₁
  obtain ⟨parts, s₃, matched, h₃⟩ := bind_gives.1 h₂
  obtain ⟨source, s₄, -, h₄⟩ := bind_gives.1 h₃
  obtain ⟨slice, s₅, -, last⟩ := bind_gives.1 h₄
  obtain ⟨rfl, rfl⟩ := pure_gives.1 last
  exact ⟨_, _, _, compiled, ((joinPresent_carries " " (by simp)).trans
    (whereText_carries parts.2)).trans (constructParts_carries matched)⟩

theorem describe_holds {resources : Value} (own : describesAlone q resources = false)
    (h : Gives (describe p q resources) s f t) : HoldsBody p q f := by
  rw [describe_eq] at h
  obtain ⟨targets, s₁, -, h₁⟩ := bind_gives.1 h
  rw [own, if_neg Bool.false_ne_true] at h₁
  obtain ⟨body, s₂, compiled, h₂⟩ := bind_gives.1 h₁
  obtain ⟨source, s₃, -, h₃⟩ := bind_gives.1 h₂
  obtain ⟨slice, s₄, -, last⟩ := bind_gives.1 h₃
  obtain ⟨rfl, rfl⟩ := pure_gives.1 last
  exact ⟨_, _, _, compiled, (joinPresent_carries " " (by simp)).trans (whereText_carries body)⟩

theorem modify_holds {deleted inserted : Value}
    (h : Gives (Compile.modify p q deleted inserted) s f t) : HoldsBody p q f := by
  obtain ⟨body, s₁, compiled, h₁⟩ := bind_gives.1 h
  obtain ⟨graph, s₂, -, h₂⟩ := bind_gives.1 h₁
  obtain ⟨delete, s₃, -, h₃⟩ := bind_gives.1 h₂
  obtain ⟨insert, s₄, -, h₄⟩ := bind_gives.1 h₃
  split at h₄
  · cases (lift_gives.1 h₄).1
  · obtain ⟨rfl, rfl⟩ := pure_gives.1 h₄
    exact ⟨_, _, _, compiled, (join_carries " " (by simp)).trans (whereText_carries body)⟩

theorem deleteSubjects_holds (h : Gives (deleteSubjects p q) s f t) : HoldsBody p q f := by
  obtain ⟨body, s₁, compiled, h₁⟩ := bind_gives.1 h
  obtain ⟨graph, s₂, -, h₂⟩ := bind_gives.1 h₁
  obtain ⟨pattern, s₃, written, last⟩ := bind_gives.1 h₂
  obtain ⟨rfl, rfl⟩ := anyTriple_gives.1 written
  obtain ⟨rfl, rfl⟩ := pure_gives.1 last
  exact ⟨_, _, _, compiled, ((join_carries " " (by simp)).trans (whereText_carries _)).trans
    (withPattern_carries body t.subject)⟩

end Compile

def Form.hasBody (q : QuerySpec) : Form → Bool
  | .describe resources => !Compile.describesAlone q resources
  | _ => true

theorem QuerySpec.write_holds {p : Prefixes} {q : QuerySpec} {form : Form} {f : Fragment}
    (own : form.hasBody q = true) (h : q.write p form = .ok f) : Compile.HoldsBody p q f := by
  cases form with
  | select =>
    obtain ⟨t, ht⟩ := Compile.run_eq_ok h
    exact Compile.select_holds ht
  | ask =>
    obtain ⟨t, ht⟩ := Compile.run_eq_ok h
    exact Compile.ask_holds ht
  | construct template =>
    obtain ⟨t, ht⟩ := Compile.run_eq_ok h
    exact Compile.construct_holds ht
  | describe resources =>
    obtain ⟨t, ht⟩ := Compile.run_eq_ok h
    exact Compile.describe_holds (by simpa [Form.hasBody] using own) ht
  | insertWhere template =>
    obtain ⟨t, ht⟩ := Compile.run_eq_ok h
    exact Compile.modify_holds ht
  | deleteWhere template =>
    obtain ⟨t, ht⟩ := Compile.run_eq_ok h
    split at ht
    · exact Compile.deleteSubjects_holds ht
    · exact Compile.modify_holds ht
  | deleteInsert deleted inserted =>
    obtain ⟨t, ht⟩ := Compile.run_eq_ok h
    exact Compile.modify_holds ht

/-! Separators. -/

def Aggregate.separator? (function given : Value) : Option String :=
  let name := trim function.plainText
  if startsWith (upper name) separatorMark then
    some (String.ofList (name.toList.drop separatorMark.toList.length))
  else (onlyText given).toOption

theorem Aggregate.separator_of_read {function column given : Value} {a : Aggregate}
    {separator : String} (asked : separator? function given = some separator)
    (h : read function column given = .ok a) : onlyText a.separator = .ok separator := by
  have made {word name : String} {own : Value} (h : make word name column own = .ok a) :
      a.separator = own := by
    unfold make at h
    split at h
    · cases h
    · split at h
      · cases h
      · exact Except.ok.inj h ▸ rfl
  unfold separator? at asked
  unfold read at h
  simp only at asked h
  split at asked
  · rename_i named
    rw [if_pos named] at h
    obtain rfl := Option.some.inj asked
    rw [made h]
    rfl
  · rename_i plain
    rw [if_neg plain] at h
    rw [made h]
    cases own : onlyText given with
    | error e =>
      rw [own] at asked
      cases asked
    | ok s =>
      rw [own] at asked
      exact congrArg Except.ok (Option.some.inj asked)

theorem Compile.separator_written {p : Prefixes} {q : QuerySpec} {s t : Scope} {f : Fragment}
    {a : Aggregate} {separator : String} (asked : q.aggregate = some a)
    (text : onlyText a.separator = .ok separator) (h : Gives (select p q) s f t) :
    ("; separator=" ++ inQuotes separator).toList <:+: f.text.toList := by
  obtain ⟨head, s₁, compiled, rest⟩ := bind_gives.1 h
  obtain ⟨groups, s₂, -, rest⟩ := bind_gives.1 rest
  obtain ⟨havings, s₃, -, rest⟩ := bind_gives.1 rest
  obtain ⟨orders, s₄, -, rest⟩ := bind_gives.1 rest
  obtain ⟨body, s₅, -, rest⟩ := bind_gives.1 rest
  obtain ⟨source, s₆, -, rest⟩ := bind_gives.1 rest
  obtain ⟨slice, s₇, -, last⟩ := bind_gives.1 rest
  obtain ⟨rfl, rfl⟩ := pure_gives.1 last
  unfold selectClause at compiled
  rw [asked] at compiled
  obtain ⟨call, s₈, inner, last⟩ := bind_gives.1 compiled
  obtain ⟨rfl, rfl⟩ := pure_gives.1 last
  rw [aggregate_eq] at inner
  obtain ⟨target, s₉, -, inner⟩ := bind_gives.1 inner
  obtain ⟨written, s₁₀, own, last⟩ := bind_gives.1 inner
  obtain ⟨same, -⟩ := lift_gives.1 own
  obtain ⟨rfl, -⟩ := pure_gives.1 last
  obtain rfl := Except.ok.inj ((separatorText_eq text).symm.trans same)
  have visible : ("; separator=" ++ inQuotes separator).toList =
      ';' :: (" separator=".toList ++ (inQuotes separator).toList) := by
    rw [String.toList_append]
    rfl
  rw [visible]
  refine joinPresent_carries " " (List.mem_append_left _ (List.mem_cons_self ..)) ';' _
    (by decide) ?_
  rw [← visible, Fragment.text_ofText, ← String.append_assoc, ← String.append_assoc]
  exact toList_infix_append ..

/-! Languages. -/

theorem inQuotes_of_isLanguageTag {l : String} (checked : Literal.isLanguageTag l = true) :
    (inQuotes l).toList = '"' :: (l.toList ++ ['"']) := by
  obtain ⟨tag, own, same⟩ := Rdf.exists_tag_of_isLanguageTag checked
  refine toList_inQuotes_of_plain fun c member => ?_
  have listed : c ∈ tag ∨ c = '\n' := by
    rcases same with whole | ended
    · exact .inl (whole ▸ member)
    · simpa [ended] using member
  rcases listed with inside | rfl
  · rcases own.chars c inside with letter | rfl
    · constructor <;> rintro rfl <;> exact absurd letter (by decide)
    · decide
  · decide

theorem Builder.language_written {b c : Builder} {target value language : Value} {e : Bind}
    (built : b.langTagged target value language = .ok c)
    (added : c.spec.binds = b.spec.binds ++ [e]) :
    ("STRLANG( ? , " ++ inQuotes language.plainText).toList <:+:
      (Compile.bindText e).text.toList := by
  unfold langTagged at built
  split at built
  · rename_i checked
    obtain ⟨name, -, last⟩ := Outcome.bind_eq_ok_iff.1 built
    obtain rfl := Outcome.pure_eq_ok_iff.1 last
    obtain rfl := List.cons.inj (List.append_cancel_left added) |>.1
    refine ⟨"BIND(".toList,
      (" )" ++ (" AS " ++ Shape.withMark (Shape.withMark name) ++ ")")).toList, ?_⟩
    simp only [Compile.bindText, Fragment.text_before, Fragment.text_after, String.toList_append,
      inQuotes_of_isLanguageTag checked]
    simp
  · cases built

/-- What the query writes between quotes in a form, and what stands right before it. -/
inductive QuerySpec.Quotes (q : QuerySpec) : Form → String → String → Prop
  | separator {b c : Builder} {function column given : Value} {separator : String}
      (built : b.aggregate function column given = .ok c) (own : q.aggregate = c.spec.aggregate)
      (asked : Aggregate.separator? function given = some separator) :
      q.Quotes .select "; separator=" separator
  | language {form : Form} {b c : Builder} {target value language : Value} {e : Bind}
      (built : b.langTagged target value language = .ok c)
      (added : c.spec.binds = b.spec.binds ++ [e]) (own : e ∈ q.binds)
      (body : form.hasBody q = true) : q.Quotes form "STRLANG( ? , " language.plainText

theorem QuerySpec.quotes_written {p : Prefixes} {q : QuerySpec} {form : Form} {f : Fragment}
    {opening text : String} (quoted : q.Quotes form opening text) (h : q.write p form = .ok f) :
    (opening ++ inQuotes text).toList <:+: f.text.toList := by
  cases quoted with
  | separator built own asked =>
    obtain ⟨a, read, last⟩ := Outcome.bind_eq_ok_iff.1 built
    obtain rfl := Outcome.pure_eq_ok_iff.1 last
    obtain ⟨t, ht⟩ := Compile.run_eq_ok h
    exact Compile.separator_written own (Aggregate.separator_of_read asked read) ht
  | language built added own body =>
    obtain ⟨s, inner, t, compiled, carried⟩ := QuerySpec.write_holds body h
    have visible (x : String) : ("STRLANG( ? , " ++ x).toList =
        'S' :: ("TRLANG( ? , ".toList ++ x.toList) := by
      rw [String.toList_append]
      rfl
    have bound := Builder.language_written built added
    rw [visible] at bound ⊢
    exact carried.trans (Compile.bindText_carried own compiled) 'S' _ (by decide) bound

/-- What a query writes between quotes is one string with the text as its content, whatever stands
around it, exactly if no line feed is in the text; then it neither asks for a value nor hides
one. -/
theorem QuerySpec.strings_of_write {p : Prefixes} {q : QuerySpec} {form : Form} {f : Fragment}
    {opening text : String} (quoted : q.Quotes form opening text) (h : q.write p form = .ok f) :
    (IsString (inQuotes text) text ↔ '\n' ∉ text.toList) ∧
      ∃ front back, f.text.toList = front ++ ((inQuotes text).toList ++ back) ∧
        opening.toList <:+ front ∧ ('\n' ∉ text.toList → QuotesClosed front →
          placeholders f.text.toList = placeholders front + placeholders back) := by
  refine ⟨isString_inQuotes_iff, ?_⟩
  obtain ⟨before, back, whole⟩ := QuerySpec.quotes_written quoted h
  have split : f.text.toList = before ++ opening.toList ++ ((inQuotes text).toList ++ back) := by
    rw [← whole, String.toList_append]
    simp only [List.append_assoc]
  refine ⟨before ++ opening.toList, back, split, List.suffix_append .., fun line closed => ?_⟩
  rw [split, (isString_inQuotes_iff.2 line).placeholders closed]

def joined : QuerySpec where
  subject := "s"
  wheres := [.filter ⟨"?x > ?", [.int 1]⟩ .and]
  binds := [⟨⟨"STRLANG( ? , \"en-GB\" )", [.text "v"]⟩, "?l"⟩]
  aggregate := some ⟨"GROUP_CONCAT", .text "?x", .text "\" ? \\", false⟩

theorem strings_of_write_joined : ∃ f, joined.write .empty .select = .ok f ∧
    f.text = "SELECT (GROUP_CONCAT(?x; separator=\"\\\" ? \\\\\") as ?aggregate) WHERE \x7b " ++
      "FILTER( ( ?x > ? ) ) BIND(STRLANG( ? , \"en-GB\" ) AS ?l) \x7d" ∧
    placeholders f.text.toList = 2 ∧
    IsString (inQuotes "\" ? \\") "\" ? \\" ∧ IsString (inQuotes "en-GB") "en-GB" ∧
    ∃ front back, f.text.toList = front ++ ((inQuotes "en-GB").toList ++ back) ∧
      (QuotesClosed front →
        placeholders f.text.toList = placeholders front + placeholders back) := by
  have named : (Builder.make "s" .empty false).aggregate (.text "group_concat") (.text "?x")
      (.text "\" ? \\") = .ok ((Builder.make "s" .empty false).withSpec
        ({ · with aggregate := joined.aggregate, orders := [] })) := rfl
  have separator : joined.Quotes .select "; separator=" "\" ? \\" := .separator named rfl rfl
  have tagged : (Builder.make "s" .empty false).langTagged (.text "l") (.text "v")
      (.text "en-GB") = .ok ((Builder.make "s" .empty false).withSpec
        ({ · with binds := joined.binds })) := rfl
  have language : joined.Quotes .select "STRLANG( ? , " "en-GB" :=
    .language tagged rfl (List.mem_singleton_self _) rfl
  obtain ⟨f, compiled, text⟩ : ∃ f, joined.write .empty .select = .ok f ∧
      f.text = "SELECT (GROUP_CONCAT(?x; separator=\"\\\" ? \\\\\") as ?aggregate) WHERE \x7b " ++
        "FILTER( ( ?x > ? ) ) BIND(STRLANG( ? , \"en-GB\" ) AS ?l) \x7d" :=
    ⟨_, rfl, by decide +kernel⟩
  obtain ⟨own, -⟩ := QuerySpec.strings_of_write separator compiled
  obtain ⟨tag, front, back, split, -, kept⟩ := QuerySpec.strings_of_write language compiled
  refine ⟨f, compiled, text, ?_, own.2 (by decide), tag.2 (by decide), front, back, split,
    kept (by decide)⟩
  rw [text]
  decide +kernel

def brokenLines : Outcome Builder := do
  let b ← (Builder.make "s" .empty false).whereLike (.text "?n") (.text "A%") (.text "and") false
  b.aggregate (.text "group_concat") (.text "?x") (.text "\n")

/-- The line feed of a separator is not escaped: the closing quote opens a string that ends at the
next quote of the query, the question mark in between asks for no value, and none is put there. The
check of languages accepts a tag with a line feed behind it. -/
theorem exists_hidden_placeholder : (∃ f, (brokenLines.bind Builder.compile) = .ok f ∧
      f.text = "SELECT (GROUP_CONCAT(?x; separator=\"\n\") as ?aggregate) WHERE \x7b " ++
        "FILTER( REGEX( ?n , ? , \"i\" ) ) \x7d" ∧
      f.bindings = [.text "^A.*$"] ∧ placeholders f.text.toList = 0 ∧
      f.bound (some .standard) = .ok f.text) ∧ ¬IsString (inQuotes "\n") "\n" ∧
    Literal.isLanguageTag "en\n" = true ∧ ¬IsString (inQuotes "en\n") "en\n" := by
  obtain ⟨f, compiled, text, values⟩ : ∃ f, brokenLines.bind Builder.compile = .ok f ∧
      f.text = "SELECT (GROUP_CONCAT(?x; separator=\"\n\") as ?aggregate) WHERE \x7b " ++
        "FILTER( REGEX( ?n , ? , \"i\" ) ) \x7d" ∧
      f.bindings = [.text "^A.*$"] := ⟨_, rfl, by decide +kernel, rfl⟩
  refine ⟨⟨f, compiled, text, values, ?_, ?_⟩, ?_, by decide +kernel, ?_⟩
  · rw [text]
    decide +kernel
  · rw [Fragment.bound, text, values]
    decide +kernel
  · rw [isString_inQuotes_iff]
    decide
  · rw [isString_inQuotes_iff]
    decide

end SparqlClient
