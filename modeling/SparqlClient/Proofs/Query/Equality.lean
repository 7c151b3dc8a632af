import SparqlClient.Proofs.Query.Extension
import SparqlClient.Proofs.Query.Fits
import SparqlClient.Proofs.Query.Folding

/-! What an equality compares with. Without a disjunction in its block it is a pattern that matches
the value, with one it is a filter that compares a variable with it. On a predicate both compare
with the same operand; along a path they do not where the value is a text that names a resource,
a blank node or a variable, since the filter takes such a text for a scalar
(`operands_of_equality`). -/

namespace SparqlClient

open Text

theorem Outcome.map_eq_error_iff {α β : Type} {x : Outcome α} {f : α → β} {e : Error} :
    x.map f = .error e ↔ x = .error e := by
  cases x <;> simp [Except.map]

namespace Fragment

variable {f g : Fragment}

theorem eq_of_parts (texts : f.text = g.text) (values : f.bindings = g.bindings) : f = g := by
  cases f
  cases g
  exact congrArg₂ Fragment.mk texts values

def Holds (f g : Fragment) : Prop := ∃ l r : Fragment, f = l ++ g ++ r

theorem holds_self (f : Fragment) : f.Holds f :=
  ⟨empty, empty, eq_of_parts (by simp [empty]) (by simp [empty])⟩

theorem Holds.before (h : f.Holds g) (s : String) : (s ++ f).Holds g := by
  obtain ⟨l, r, rfl⟩ := h
  exact ⟨s ++ l, r, eq_of_parts (by simp [String.append_assoc]) rfl⟩

theorem Holds.after (h : f.Holds g) (s : String) : (f ++ s).Holds g := by
  obtain ⟨l, r, rfl⟩ := h
  exact ⟨l, r ++ s, eq_of_parts (by simp [String.append_assoc]) rfl⟩

theorem Holds.append_right (h : f.Holds g) (e : Fragment) : (f ++ e).Holds g := by
  obtain ⟨l, r, rfl⟩ := h
  exact ⟨l, r ++ e, eq_of_parts (by simp [String.append_assoc]) (by simp)⟩

theorem Holds.append_left (h : f.Holds g) (e : Fragment) : (e ++ f).Holds g := by
  obtain ⟨l, r, rfl⟩ := h
  exact ⟨e ++ l, r, eq_of_parts (by simp [String.append_assoc]) (by simp)⟩

theorem holds_join {parts : List Fragment} (h : g ∈ parts) (sep : String) :
    (join sep parts).Holds g := by
  induction parts with
  | nil => cases h
  | cons e es ih =>
    cases es with
    | nil =>
      obtain rfl := List.mem_singleton.1 h
      rw [join_singleton]
      exact g.holds_self
    | cons e' es =>
      rw [join_cons_cons]
      rcases List.mem_cons.1 h with rfl | later
      · exact (g.holds_self.after sep).append_right _
      · exact (ih later).append_left _

def Shows (f g : Fragment) : Prop := ∃ e, f.Holds e ∧ e.text = g.text ∧ (g.bindings = [] ∨ e = g)

end Fragment

namespace Clauses

open Fragment

theorem mem_dedupe_of_bindings {fs : List Fragment} {f : Fragment} (h : f ∈ fs)
    (values : f.bindings ≠ []) (seen : List String) : f ∈ dedupe seen fs := by
  induction fs generalizing seen with
  | nil => cases h
  | cons e fs ih =>
    rw [dedupe]
    rcases List.mem_cons.1 h with rfl | later
    · rw [if_neg (by simp [values])]
      exact List.mem_cons_self ..
    · split
      · exact ih later seen
      · exact List.mem_cons_of_mem _ (ih later _)

theorem holds_foldl {ts : List Test} {e f : Fragment}
    (h : e.Holds f ∨ ∃ t ∈ ts, t.expression = f) :
    (ts.foldl (fun (e : Fragment) t =>
      "( " ++ (e ++ (" " ++ t.connector.sign ++ " ") ++ t.expression) ++ " )") e).Holds f := by
  induction ts generalizing e with
  | nil =>
    rcases h with here | ⟨t, none, -⟩
    · exact here
    · cases none
  | cons t ts ih =>
    rw [List.foldl_cons]
    refine ih ?_
    rcases h with here | ⟨u, member, rfl⟩
    · exact .inl ((((here.after _).append_right _).before _).after _)
    · rcases List.mem_cons.1 member with rfl | later
      · exact .inl (((u.expression.holds_self.append_left _).before _).after _)
      · exact .inr ⟨u, later, rfl⟩

theorem holds_foldTests {ts : List Test} {t : Test} (h : t ∈ ts) :
    (foldTests ts).Holds t.expression := by
  cases ts with
  | nil => cases h
  | cons u ts =>
    rw [foldTests]
    refine holds_foldl ?_
    rcases List.mem_cons.1 h with rfl | later
    · exact .inl t.expression.holds_self
    · exact .inr ⟨t, later, rfl⟩

variable {c : Clauses}

theorem holds_test {t : Test} (h : t ∈ c.tests) (folded : Bool) :
    (c.fragment folded).Holds t.expression := by
  have inFilters : ∃ e ∈ filters folded c.tests, e.Holds t.expression := by
    unfold filters
    split
    · exact ⟨_, List.mem_singleton_self _, ((holds_foldTests h).before _).after _⟩
    · exact ⟨_, List.mem_map_of_mem h, (t.expression.holds_self.before _).after _⟩
  obtain ⟨e, member, l, r, rfl⟩ := inFilters
  obtain ⟨l', r', whole⟩ := holds_join (List.mem_append_right (dedupe [] c.patterns) member) " "
  refine ⟨l' ++ l, r ++ r', ?_⟩
  rw [fragment, whole]
  exact eq_of_parts (by simp [String.append_assoc]) (by simp)

theorem shows_pattern {g : Fragment} (h : g ∈ c.patterns) (folded : Bool) :
    (c.fragment folded).Shows g := by
  by_cases plain : g.bindings = []
  · rcases mem_dedupe h [] with seen | ⟨e, kept, same⟩
    · cases seen
    · exact ⟨e, holds_join (List.mem_append_left _ kept) " ", same, .inl plain⟩
  · have kept := mem_dedupe_of_bindings h plain []
    exact ⟨g, holds_join (List.mem_append_left _ kept) " ", rfl, .inr rfl⟩

end Clauses

namespace Compile

def KeepsSubject {α : Type} (m : Compile α) : Prop :=
  ∀ s a t, Gives m s a t → t.subject = s.subject

namespace KeepsSubject

variable {α β : Type}

theorem pure (a : α) : KeepsSubject (pure a) := by
  intro s b t h
  rw [(pure_gives.1 h).2]

theorem lift (x : Outcome α) : KeepsSubject (liftM x) := by
  intro s b t h
  rw [(lift_gives.1 h).2]

theorem get : KeepsSubject get := by
  intro s b t h
  rw [(get_gives.1 h).2]

theorem bind {m : Compile α} {f : α → Compile β} (first : KeepsSubject m)
    (next : ∀ a, KeepsSubject (f a)) : KeepsSubject (m >>= f) := by
  intro s b t h
  obtain ⟨a, u, ha, hb⟩ := bind_gives.1 h
  rw [next a u b t hb, first s a u ha]

theorem variableFor (q hint : String) : KeepsSubject (variableFor q hint) := by
  intro s ref t h
  have grown := (s.grows_variableFor q hint).subject
  rwa [modifyGet_gives.1 h] at grown

theorem resolve (p : Prefixes) (v : Value) : KeepsSubject (resolve p v) := by
  intro s c t h
  exact (resolve_grows h).subject

theorem atTop (l : Place) (q : String) : KeepsSubject (l.atTop q) := by
  unfold Place.atTop
  split
  · intro s a t h
    rw [modify_gives.1 h]
  · exact .pure _

theorem columnPattern (l : Place) (c : Column) (optional : Bool) :
    KeepsSubject (columnPattern l c optional) := by
  unfold Compile.columnPattern
  split
  · exact .pure _
  · exact .bind (.bind .get fun _ => .pure _) fun _ => .bind (.atTop l _) fun _ => .pure _

theorem columnTest (l : Place) (c : Column) (optional : Bool) (connector : Connector)
    (e : Fragment) : KeepsSubject (columnTest l c optional connector e) :=
  .bind (.columnPattern l c optional) fun _ => .pure _

end KeepsSubject

mutual

theorem keepsSubject_condition (l : Place) : (c : Condition) → KeepsSubject (condition l c)
  | .basic column operator value connector => by
    rw [condition]
    refine .bind (.resolve _ _) fun c => .bind (.lift _) fun o => ?_
    split
    · exact .bind (.bind .get fun _ => .pure _) fun _ => .pure _
    · exact .bind (.lift _) fun _ => .columnTest _ _ _ _ _
  | .within column values connector negated => by
    rw [condition]
    exact .bind (.resolve _ _) fun _ => .columnTest _ _ _ _ _
  | .between r => by
    rw [condition]
    exact .bind (.resolve _ _) fun _ => .columnTest _ _ _ _ _
  | .null column connector => by
    rw [condition]
    exact .bind (.resolve _ _) fun _ => .columnTest _ _ _ _ _
  | .notNull column connector => by
    rw [condition]
    refine .bind (.resolve _ _) fun c => ?_
    split
    · exact .columnTest _ _ _ _ _
    · exact .columnPattern _ _ _
  | .raw pattern => by
    rw [condition]
    exact .pure _
  | .filter expression connector => by
    rw [condition]
    exact .pure _
  | .triple subject pred object => by
    rw [condition]
    exact .pure _
  | .group kind conditions => by
    rw [condition]
    exact .bind (.lift _) fun _ => .bind (keepsSubject_all _ conditions) fun _ =>
      .bind (.lift _) fun _ => .pure _
  | .union branches => by
    rw [condition]
    exact .bind (keepsSubject_blocks _ branches) fun _ => .pure _
  | .exists conditions connector negated => by
    rw [condition]
    exact .bind (.lift _) fun _ => .bind (keepsSubject_all _ conditions) fun _ => .pure _
  | .path text o value connector => by
    rw [condition]
    refine .bind (.lift _) fun way => .bind .get fun scope => ?_
    split
    · exact .pure _
    · exact .bind (.variableFor _ _) fun _ => .bind (.lift _) fun _ => .pure _
  | .stray order => by
    rw [condition]
    exact .bind (.resolve _ _) fun _ => .lift _

theorem keepsSubject_all (l : Place) : (cs : List Condition) → KeepsSubject (all l cs)
  | [] => by
    rw [all]
    exact .pure _
  | c :: cs => by
    rw [all]
    exact .bind (keepsSubject_condition l c) fun _ => .bind (keepsSubject_all l cs) fun _ => .pure _

theorem keepsSubject_blocks (p : Prefixes) : (bs : List (List Condition)) →
    KeepsSubject (blocks p bs)
  | [] => by
    rw [blocks]
    exact .pure _
  | b :: bs => by
    rw [blocks]
    exact .bind (.lift _) fun _ => .bind (keepsSubject_all _ b) fun _ =>
      .bind (keepsSubject_blocks p bs) fun _ => .pure _

end

theorem mem_all {l : Place} {c : Condition} {cs : List Condition} {s t : Scope} {a : Clauses}
    (member : c ∈ cs) (h : Gives (all l cs) s a t) :
    ∃ u b v, Gives (condition l c) u b v ∧ u.subject = s.subject ∧
      (∀ f ∈ b.patterns, f ∈ a.patterns) ∧ ∀ x ∈ b.tests, x ∈ a.tests := by
  induction cs generalizing s a with
  | nil => cases member
  | cons d cs ih =>
    rw [all] at h
    obtain ⟨b, u, first, rest⟩ := bind_gives.1 h
    obtain ⟨e, v, others, last⟩ := bind_gives.1 rest
    obtain ⟨rfl, rfl⟩ := pure_gives.1 last
    rcases List.mem_cons.1 member with rfl | later
    · exact ⟨s, b, u, first, rfl, fun f => List.mem_append_left _, fun x => List.mem_append_left _⟩
    · obtain ⟨u', b', v', compiled, same, patterns, tests⟩ := ih later others
      refine ⟨u', b', v', compiled, same.trans (keepsSubject_condition l d s b u first), ?_, ?_⟩
      · exact fun f hf => List.mem_append_right _ (patterns f hf)
      · exact fun x hx => List.mem_append_right _ (tests x hx)

end Compile

/-- Where an equality looks from the subject, and what it compares with as a pattern and as a
test. -/
structure Equality where
  way : String
  matched : Fragment
  tested : Fragment

inductive Condition.Equates (p : Prefixes) : Condition → Outcome Equality → Prop
  | predicate {column iri : Value} {operator : String} (value : Value) (connector : Connector)
      (equal : Operator.read (.text operator) = .ok (.compare .eq))
      (named : columnForm p column = .predicate iri) :
      Equates p (.basic column operator value connector)
        ((normalizeIriValue iri).map fun q =>
          ⟨angled q, Write.operand p value, Write.operand p value⟩)
  | path (text : String) (value : Value) (connector : Connector) :
      Equates p (.path text (.compare .eq) value connector)
        ((Path.expand p text).map fun way =>
          ⟨way, Write.nodeOperand p value, Write.operand p value⟩)

/-- A text that stands for a resource, a blank node or a variable where a node is written. -/
def Value.NamesNode (p : Prefixes) : Value → Prop
  | .text s => (classifyText (some p) s).kind ∈ [.iri, .urn, .blank, .variable]
  | _ => False

def Condition.ReachesNode (p : Prefixes) : Condition → Prop
  | .path _ _ value _ => value.NamesNode p
  | _ => False

theorem nodeOperand_eq_iff (p : Prefixes) (v : Value) :
    Write.nodeOperand p v = Write.operand p v ↔ ¬v.NamesNode p := by
  cases v with
  | text s =>
    have scalar : Write.operand p (.text s) = .placeholder (.text s) := rfl
    rw [scalar, Write.nodeOperand, Value.NamesNode]
    cases (classifyText (some p) s).kind <;> simp [Fragment.ofText, Fragment.placeholder]
  | _ => simp [Write.nodeOperand, Value.NamesNode]

namespace Condition.Equates

open Compile

variable {p : Prefixes} {c : Condition} {o : Outcome Equality} {e : Equality} {top : Bool}
  {s t : Scope} {a : Clauses}

theorem refused {err : Error} (h : c.Equates p o) (failed : o = .error err) (folded top : Bool)
    (s : Scope) : StateT.run (condition ⟨p, folded, top⟩ c) s = .error err := by
  cases h with
  | @predicate column iri operator value connector equal named =>
    have unresolved : StateT.run (resolve p column) s = .error err := by
      rw [run_resolve, named, ColumnForm.resolved, Outcome.map_eq_error_iff.1 failed]
      rfl
    rw [condition, Compile.basic, StateT.run_bind, unresolved]
    rfl
  | path text value connector =>
    rw [condition, Compile.path, Outcome.map_eq_error_iff.1 failed]
    rfl

theorem test_eq (p : Prefixes) (ref : String) (value label : Value) :
    Write.test p ref (.compare .eq) value label =
      .ok ((ref ++ " = ") ++ Write.operand p value) := by
  rw [Write.test, String.append_assoc, String.append_assoc]
  rfl

theorem named_eq {column iri : Value} {q : String} {d : Column}
    (named : columnForm p column = .predicate iri) (normal : normalizeIriValue iri = .ok q)
    (resolved : Gives (resolve p column) s d t) : d.predicate = some q := by
  have writes := resolve_writes resolved
  rw [named] at writes
  obtain ⟨r, hr, behind, -⟩ := writes
  rw [behind, Except.ok.inj (hr.symm.trans normal)]

theorem matches_value (h : c.Equates p o) (named : o = .ok e)
    (compiled : Gives (condition ⟨p, false, top⟩ c) s a t) :
    a = .ofPattern (along s.subject e.way e.matched) := by
  cases h with
  | predicate value connector equal form =>
    obtain ⟨q, normal, rfl⟩ := Outcome.map_eq_ok_iff.1 named
    obtain ⟨d, u, o, resolved, read, ⟨r, -, behind, -, rfl, rfl⟩ | ⟨other, -⟩⟩ :=
      basic_gives compiled
    · rw [named_eq form normal resolved, Option.some.injEq] at behind
      rw [behind, subject_resolve resolved]
    · have absent := other (Except.ok.inj (read.symm.trans equal)) rfl
      rw [named_eq form normal resolved] at absent
      cases absent
  | path text value connector =>
    obtain ⟨way, expanded, rfl⟩ := Outcome.map_eq_ok_iff.1 named
    obtain ⟨way', expanded', ⟨-, -, rfl⟩ | ⟨kept, -⟩⟩ := path_gives compiled
    · rw [Except.ok.inj (expanded.symm.trans expanded')]
    · simp at kept

theorem tests_value (h : c.Equates p o) (named : o = .ok e)
    (compiled : Gives (condition ⟨p, true, top⟩ c) s a t) :
    ∃ ref connector,
      a = ⟨[optionally true (along s.subject e.way (.ofText ref))],
        [⟨connector, (ref ++ " = ") ++ e.tested⟩]⟩ := by
  cases h with
  | @predicate column iri operator value connector equal form =>
    obtain ⟨q, normal, rfl⟩ := Outcome.map_eq_ok_iff.1 named
    obtain ⟨d, u, o, resolved, read, ⟨r, -, -, unfolded, -⟩ | ⟨-, x, written, rest⟩⟩ :=
      basic_gives compiled
    · cases unfolded
    · obtain rfl := Except.ok.inj (read.symm.trans equal)
      obtain rfl := Except.ok.inj ((test_eq ..).symm.trans written)
      obtain ⟨b, pattern, rfl⟩ := columnTest_gives rest
      have behind := named_eq form normal resolved
      obtain ⟨absent, -, -⟩ | ⟨r, found, -, rfl⟩ := columnPattern_gives pattern
      · rw [behind] at absent
        cases absent
      · rw [behind, Option.some.injEq] at found
        rw [← found, subject_resolve resolved]
        exact ⟨d.ref, connector, rfl⟩
  | path text value connector =>
    obtain ⟨way, expanded, rfl⟩ := Outcome.map_eq_ok_iff.1 named
    obtain ⟨way', expanded', ⟨unfolded, -⟩ | ⟨-, ref, x, -, written, rfl⟩⟩ := path_gives compiled
    · simp at unfolded
    · obtain rfl := Except.ok.inj ((test_eq ..).symm.trans written)
      rw [Except.ok.inj (expanded.symm.trans expanded')]
      exact ⟨ref, connector, rfl⟩

theorem operands_eq_iff (h : c.Equates p o) (named : o = .ok e) :
    e.matched = e.tested ↔ ¬c.ReachesNode p := by
  cases h with
  | predicate value connector =>
    obtain ⟨q, -, rfl⟩ := Outcome.map_eq_ok_iff.1 named
    simp [Condition.ReachesNode]
  | path text value connector =>
    obtain ⟨way, -, rfl⟩ := Outcome.map_eq_ok_iff.1 named
    exact nodeOperand_eq_iff p value

end Condition.Equates

section

open Compile

/-- An equality is refused in both forms or in neither. In a block without a disjunction it
matches one operand, in a block with one it is compared with one, whatever else the blocks hold;
and the two operands are the same, text and values, but for a path with a text that names a
node. -/
theorem operands_of_equality {p : Prefixes} {c : Condition} {o : Outcome Equality}
    (h : c.Equates p o) :
    (∀ err, o = .error err → ∀ folded top s,
      StateT.run (condition ⟨p, folded, top⟩ c) s = .error err) ∧
    ∀ e, o = .ok e →
      (∀ top conditions s f t, c ∈ conditions → foldsTests conditions = false →
        Gives (blockAt p top conditions) s f t → f.Shows (along s.subject e.way e.matched)) ∧
      (∀ top conditions s f t, c ∈ conditions → foldsTests conditions = true →
        Gives (blockAt p top conditions) s f t → ∃ ref : String,
          f.Shows (optionally true (along s.subject e.way (.ofText ref))) ∧
          f.Holds ((ref ++ " = ") ++ e.tested)) ∧
      (e.matched = e.tested ↔ ¬c.ReachesNode p) := by
  refine ⟨fun err failed => h.refused failed, fun e named => ⟨?_, ?_, h.operands_eq_iff named⟩⟩
  · intro top conditions s f t member unfolded compiled
    obtain ⟨a, each, rfl⟩ := blockAt_gives compiled
    rw [unfolded] at each
    obtain ⟨u, b, v, alone, same, patterns, -⟩ := mem_all member each
    obtain rfl := h.matches_value named alone
    rw [← same]
    exact Clauses.shows_pattern (patterns _ (List.mem_singleton_self _)) _
  · intro top conditions s f t member folded compiled
    obtain ⟨a, each, rfl⟩ := blockAt_gives compiled
    rw [folded] at each
    obtain ⟨u, b, v, alone, same, patterns, tests⟩ := mem_all member each
    obtain ⟨ref, connector, rfl⟩ := h.tests_value named alone
    rw [← same]
    exact ⟨ref, Clauses.shows_pattern (patterns _ (List.mem_singleton_self _)) _,
      Clauses.holds_test (tests _ (List.mem_singleton_self _)) _⟩

def namedOrKnown (name value : String) : List Condition :=
  [.basic (.text "<http://e/name>") "=" (.text name) .and,
    .path "<http://e/knows>" (.compare .eq) (.text value) .or]

theorem expand_knows : Path.expand .empty "<http://e/knows>" = .ok "<http://e/knows>" := by
  have read : (Path.expand .empty "<http://e/knows>").toOption = some "<http://e/knows>" := by
    decide +kernel
  cases h : Path.expand .empty "<http://e/knows>" with
  | error e => rw [h] at read; cases read
  | ok way => rw [h] at read; rw [Option.some.inj read]

theorem operands_of_equality_name : ∃ f g t u,
    Gives (blockAt .empty true ((namedOrKnown "Al" "x").take 1)) (.ofSubject "s") f t ∧
    f.Shows (along "?s" "<http://e/name>" (.placeholder (.text "Al"))) ∧
    Gives (blockAt .empty true (namedOrKnown "Al" "x")) (.ofSubject "s") g u ∧
    ∃ ref : String, g.Holds ((ref ++ " = ") ++ Fragment.placeholder (.text "Al")) := by
  have equates : Condition.Equates .empty
      (.basic (.text "<http://e/name>") "=" (.text "Al") .and) _ := .predicate _ _ rfl rfl
  obtain ⟨-, both⟩ := operands_of_equality equates
  obtain ⟨matched, tested, -⟩ := both ⟨"<http://e/name>", _, _⟩ rfl
  have folded : ∃ g u,
      Gives (blockAt .empty true (namedOrKnown "Al" "x")) (.ofSubject "s") g u := by
    simp only [namedOrKnown, blockAt, all, condition, path, expand_knows]
    exact ⟨_, _, rfl⟩
  obtain ⟨g, u, compiled⟩ := folded
  have alone := matched true ((namedOrKnown "Al" "x").take 1) (.ofSubject "s") _ _
    (List.mem_cons_self ..) rfl rfl
  obtain ⟨ref, -, compared⟩ := tested true (namedOrKnown "Al" "x") (.ofSubject "s") g u
    (List.mem_cons_self ..) rfl compiled
  exact ⟨_, g, _, u, rfl, alone, compiled, ref, compared⟩

/-- The name of a resource is written into the pattern; with an alternative it is a value that
the variable is compared with. -/
theorem exists_operand_ne : ∃ f g t u,
    Gives (blockAt .empty true ((namedOrKnown "Al" "http://e/a").drop 1)) (.ofSubject "s") f t ∧
    f.text = "?s <http://e/knows> <http://e/a> ." ∧ f.bindings = [] ∧
    Gives (blockAt .empty true (namedOrKnown "Al" "http://e/a")) (.ofSubject "s") g u ∧
    g.text = "OPTIONAL { ?s <http://e/name> ?name . } " ++
      "OPTIONAL { ?s <http://e/knows> ?knows . } FILTER( ( ?name = ? || ?knows = ? ) )" ∧
    g.bindings = [.text "Al", .text "http://e/a"] := by
  simp only [namedOrKnown, List.drop, blockAt, all, condition, path, expand_knows]
  exact ⟨_, _, _, _, rfl, by decide +kernel, rfl, rfl, by decide +kernel, rfl⟩

end

end SparqlClient
