import SparqlClient.Proofs.Query.Extension
import SparqlClient.Proofs.Query.Folding

/-! Variables of tests and their patterns. In every block, at any depth, a test of a predicate or
of a path is a test of a variable, and the pattern that reaches the variable from the subject
stands in the same block, whatever other blocks bring and although equal patterns are written
once. -/

namespace SparqlClient

open Text

inductive Target
  | column (v : Value)
  | path (text : String)

namespace Condition

def target? : Condition → Option Target
  | .basic column _ _ _ => some (.column column)
  | .within column _ _ _ => some (.column column)
  | .between r => some (.column r.column)
  | .null column _ => some (.column column)
  | .notNull column _ => some (.column column)
  | .path text _ _ _ => some (.path text)
  | _ => none

def TestsOn (p : Prefixes) (ref : String) (e : Fragment) : Condition → Prop
  | .basic column operator value _ => ∃ o, Operator.read (.text operator) = .ok o ∧
    Write.test p ref o value column = .ok e
  | .within _ values _ negated => e = Write.membership p ref values negated
  | .between r => e = Write.range p ref r
  | .null .. => e = .ofText ("!BOUND(" ++ ref ++ ")")
  | .notNull .. => e = .ofText ("BOUND(" ++ ref ++ ")")
  | .path text o value _ => Write.test p ref o value (.text text) = .ok e
  | _ => False

end Condition

/-- A predicate is written as a variable whose pattern is among the parts. -/
def Value.Anchored (p : Prefixes) (subject : String) (parts : List Fragment) (v : Value)
    (ref : String) : Prop :=
  match columnForm p v with
  | .written s => ref = s
  | .predicate iri => ∃ q, normalizeIriValue iri = .ok q ∧ IsVariable ref ∧
    Reached parts subject (angled q) ref

def Target.Anchored (p : Prefixes) (subject : String) (parts : List Fragment) (ref : String) :
    Target → Prop
  | .column v => v.Anchored p subject parts ref
  | .path text => ∃ way, Path.expand p text = .ok way ∧ IsVariable ref ∧
    Reached parts subject way ref

mutual

inductive ConditionAnchored (p : Prefixes) (subject : String) :
    List Fragment → Condition → Clauses → Prop
  | tests {parts : List Fragment} {c : Condition} {a : Clauses} (target : Target)
      (reads : c.target? = some target)
      (each : ∀ t ∈ a.tests, ∃ ref, c.TestsOn p ref t.expression ∧
        target.Anchored p subject parts ref) : ConditionAnchored p subject parts c a
  | raw {parts : List Fragment} (pattern : Fragment) :
      ConditionAnchored p subject parts (.raw pattern) (.ofPattern pattern)
  | triple {parts : List Fragment} (s q o : Value) :
      ConditionAnchored p subject parts (.triple s q o) (.ofPattern (Write.triple p s q o))
  | filter {parts : List Fragment} (expression : Fragment) (connector : Connector) :
      ConditionAnchored p subject parts (.filter expression connector)
        (.ofTest connector ("( " ++ expression ++ " )"))
  | group {parts : List Fragment} (kind : GroupKind) {conditions : List Condition}
      {inner text : Fragment} (nested : BlockAnchored p subject conditions inner)
      (written : Compile.groupText p kind inner = .ok text) :
      ConditionAnchored p subject parts (.group kind conditions) (.ofPattern text)
  | union {parts : List Fragment} {branches : List (List Condition)} {texts : List Fragment}
      (nested : List.Forall₂ (BlockAnchored p subject) branches texts) :
      ConditionAnchored p subject parts (.union branches)
        (.ofPattern (.join " UNION " (texts.map Fragment.inBraces)))
  | exists {parts : List Fragment} {conditions : List Condition} {inner : Fragment}
      (nested : BlockAnchored p subject conditions inner) (connector : Connector)
      (negated : Bool) : ConditionAnchored p subject parts (.exists conditions connector negated)
        (.ofTest connector ((if negated then "NOT EXISTS " else "EXISTS ") ++ inner.inBraces))

inductive AllAnchored (p : Prefixes) (subject : String) :
    List Fragment → List Condition → List Clauses → Prop
  | nil {parts : List Fragment} : AllAnchored p subject parts [] []
  | cons {parts : List Fragment} {c : Condition} {cs : List Condition} {a : Clauses}
      {as : List Clauses} (first : ConditionAnchored p subject parts c a)
      (rest : AllAnchored p subject parts cs as) : AllAnchored p subject parts (c :: cs) (a :: as)

/-- The patterns of a block, each text once, and behind them the tests, whose variables they
reach. -/
inductive BlockAnchored (p : Prefixes) (subject : String) : List Condition → Fragment → Prop
  | mk {conditions : List Condition} {as : List Clauses}
      (each : AllAnchored p subject (Clauses.dedupe [] (as.flatMap Clauses.patterns))
        conditions as) :
      BlockAnchored p subject conditions
        (Clauses.fragment ⟨as.flatMap Clauses.patterns, as.flatMap Clauses.tests⟩
          (foldsTests conditions))

end

theorem covers_dedupe (fs : List Fragment) : Covers (Clauses.dedupe [] fs) fs := by
  intro f hf
  rcases Clauses.mem_dedupe hf [] with seen | kept
  · cases seen
  · exact kept

theorem Covers.of_append {parts a b : List Fragment} (h : Covers parts (a ++ b)) :
    Covers parts a ∧ Covers parts b :=
  ⟨fun f hf => h f (List.mem_append_left b hf), fun f hf => h f (List.mem_append_right a hf)⟩

theorem Value.anchored_of_reached {p : Prefixes} {subject : String} {parts : List Fragment}
    {v : Value} {s t : Scope} {c : Column} (resolved : Compile.Gives (Compile.resolve p v) s c t)
    (named : t.Named)
    (reached : ∀ q, c.predicate = some q → Reached parts subject (angled q) c.ref) :
    v.Anchored p subject parts c.ref := by
  have writes := Compile.resolve_writes resolved
  unfold Value.Anchored
  cases form : columnForm p v with
  | written text =>
    rw [form] at writes
    exact congrArg Column.ref writes
  | predicate iri =>
    rw [form] at writes
    obtain ⟨q, hq, behind, known⟩ := writes
    exact ⟨q, hq, named.isVariable known, reached q behind⟩

namespace Compile

variable {l : Place} {s t u : Scope} {a : Clauses}

theorem atTop_grows {q ref : String} {patterns : List Fragment} (known : s.refOf? q = some ref)
    (reached : Reached patterns s.subject (angled q) ref) (h : Gives (l.atTop q) s () t) :
    s.Grows l.top patterns t := by
  unfold Place.atTop at h
  split at h
  · rename_i top
    obtain rfl := modify_gives.1 h
    refine ⟨⟨rfl, fun _ _ => id, fun _ => id⟩, id, ?_⟩
    intro r hr
    rcases List.mem_cons.1 hr with rfl | old
    · exact .inr ⟨top, ref, known, reached⟩
    · exact .inl old
  · obtain ⟨-, rfl⟩ := pure_gives.1 h
    exact .refl _ _ t

theorem columnPattern_grows {c : Column} {optional : Bool}
    (known : ∀ q, c.predicate = some q → s.refOf? q = some c.ref)
    (h : Gives (columnPattern l c optional) s a t) :
    s.Grows l.top a.patterns t ∧ a.tests = [] ∧
      ∀ q, c.predicate = some q → Reached a.patterns s.subject (angled q) c.ref := by
  rcases columnPattern_gives h with ⟨absent, rfl, rfl⟩ | ⟨q, named, emitted, rfl⟩
  · refine ⟨.refl _ _ t, rfl, ?_⟩
    intro q hq
    rw [absent] at hq
    cases hq
  · have reached : Reached
        [optionally optional (along s.subject (angled q) (.ofText c.ref))]
        s.subject (angled q) c.ref := ⟨_, List.mem_singleton.2 rfl, optional, rfl⟩
    refine ⟨atTop_grows (known q named) reached emitted, rfl, ?_⟩
    intro r hr
    rw [named] at hr
    cases hr
    exact reached

theorem columnTest_anchored {v : Value} {c : Column} {optional : Bool} {connector : Connector}
    {e : Fragment} (resolved : Gives (resolve l.prefixes v) s c u)
    (h : Gives (columnTest l c optional connector e) u a t) (hs : s.Named) :
    s.Grows l.top a.patterns t ∧ a.tests = [⟨connector, e⟩] ∧
      ∀ parts, Covers parts a.patterns → v.Anchored l.prefixes s.subject parts c.ref := by
  obtain ⟨b, pattern, rfl⟩ := columnTest_gives h
  have grown := resolve_grows resolved
  obtain ⟨to_t, untested, reached⟩ :=
    columnPattern_grows (fun q hq => refOf?_resolve resolved hq) pattern
  have tests : (b.append (.ofTest connector e)).tests = [⟨connector, e⟩] := by
    rw [Clauses.append, untested]
    rfl
  have patterns : (b.append (.ofTest connector e)).patterns = b.patterns := List.append_nil _
  rw [patterns]
  refine ⟨(grown.silent l.top []).append to_t, tests, ?_⟩
  intro parts covers
  refine Value.anchored_of_reached resolved (grown.named hs) fun q hq => ?_
  rw [← grown.subject]
  exact (reached q hq).covered covers

theorem columnTest_condition {c : Condition} {v : Value} {r : Column} {optional : Bool}
    {connector : Connector} {e : Fragment} (reads : c.target? = some (.column v))
    (resolved : Gives (resolve l.prefixes v) s r u)
    (h : Gives (columnTest l r optional connector e) u a t)
    (tests : c.TestsOn l.prefixes r.ref e) (hs : s.Named) :
    s.Grows l.top a.patterns t ∧
      ∀ parts, Covers parts a.patterns → ConditionAnchored l.prefixes s.subject parts c a := by
  obtain ⟨grown, once, anchored⟩ := columnTest_anchored resolved h hs
  refine ⟨grown, fun parts covers => .tests _ reads fun x hx => ?_⟩
  rw [once, List.mem_singleton] at hx
  rw [hx]
  exact ⟨r.ref, tests, anchored parts covers⟩

theorem untested_condition {c : Condition} {target : Target} {parts : List Fragment}
    (reads : c.target? = some target) (untested : a.tests = []) :
    ConditionAnchored l.prefixes s.subject parts c a :=
  .tests target reads (by simp [untested])

theorem path_anchored {path : String} {o : Operator} {value : Value} {connector : Connector}
    (h : Gives (condition l (.path path o value connector)) s a t) (hs : s.Named) :
    s.Grows l.top a.patterns t ∧ ∀ parts, Covers parts a.patterns →
      ConditionAnchored l.prefixes s.subject parts (.path path o value connector) a := by
  obtain ⟨way, expanded, ⟨-, rfl, rfl⟩ | ⟨-, ref, e, named, written, rfl⟩⟩ := path_gives h
  · exact ⟨.refl _ _ t, fun parts _ => untested_condition rfl rfl⟩
  · have grown := s.grows_variableFor way (Path.hint way)
    have known := s.refOf?_variableFor way (Path.hint way)
    rw [named] at grown known
    have reached : Reached
        [optionally l.folded (along s.subject way (.ofText ref))] s.subject way ref :=
      ⟨_, List.mem_singleton.2 rfl, l.folded, rfl⟩
    refine ⟨grown.silent _ _, fun parts covers => .tests _ rfl fun x hx => ?_⟩
    rw [List.mem_singleton.1 hx]
    exact ⟨ref, written, way, expanded, (grown.named hs).isVariable known,
      reached.covered covers⟩

theorem basic_anchored {column value : Value} {operator : String} {connector : Connector}
    (h : Gives (condition l (.basic column operator value connector)) s a t) (hs : s.Named) :
    s.Grows l.top a.patterns t ∧ ∀ parts, Covers parts a.patterns →
      ConditionAnchored l.prefixes s.subject parts (.basic column operator value connector) a := by
  obtain ⟨c, u, o, resolved, ho, ⟨q, -, -, -, rfl, rfl⟩ | ⟨-, e, he, last⟩⟩ := basic_gives h
  · exact ⟨(resolve_grows resolved).silent _ _, fun parts _ => untested_condition rfl rfl⟩
  · exact columnTest_condition rfl resolved last ⟨o, ho, he⟩ hs

theorem notNull_anchored {column : Value} {connector : Connector}
    (h : Gives (condition l (.notNull column connector)) s a t) (hs : s.Named) :
    s.Grows l.top a.patterns t ∧ ∀ parts, Covers parts a.patterns →
      ConditionAnchored l.prefixes s.subject parts (.notNull column connector) a := by
  obtain ⟨c, u, resolved, ⟨-, rest⟩ | ⟨-, named, rest⟩⟩ := notNull_gives h
  · exact columnTest_condition rfl resolved rest rfl hs
  · obtain ⟨to_t, untested, -⟩ := columnPattern_grows (fun q hq => refOf?_resolve resolved hq) rest
    exact ⟨((resolve_grows resolved).silent l.top []).append to_t,
      fun parts _ => untested_condition rfl untested⟩

mutual

theorem condition_anchored (l : Place) (c : Condition) {s t : Scope} {a : Clauses}
    (hs : s.Named) (h : Gives (condition l c) s a t) :
    s.Grows l.top a.patterns t ∧
      ∀ parts, Covers parts a.patterns → ConditionAnchored l.prefixes s.subject parts c a := by
  cases c with
  | basic column operator value connector => exact basic_anchored h hs
  | within column values connector negated =>
    rw [condition] at h
    obtain ⟨c, u, resolved, rest⟩ := bind_gives.1 h
    exact columnTest_condition rfl resolved rest rfl hs
  | between r =>
    rw [condition] at h
    obtain ⟨c, u, resolved, rest⟩ := bind_gives.1 h
    exact columnTest_condition rfl resolved rest rfl hs
  | null column connector =>
    rw [condition] at h
    obtain ⟨c, u, resolved, rest⟩ := bind_gives.1 h
    exact columnTest_condition rfl resolved rest rfl hs
  | notNull column connector => exact notNull_anchored h hs
  | raw pattern =>
    rw [condition] at h
    obtain ⟨rfl, rfl⟩ := pure_gives.1 h
    exact ⟨.refl _ _ t, fun parts _ => .raw pattern⟩
  | filter expression connector =>
    rw [condition] at h
    obtain ⟨rfl, rfl⟩ := pure_gives.1 h
    exact ⟨.refl _ _ t, fun parts _ => .filter expression connector⟩
  | triple subject pred object =>
    rw [condition] at h
    obtain ⟨rfl, rfl⟩ := pure_gives.1 h
    exact ⟨.refl _ _ t, fun parts _ => .triple subject pred object⟩
  | group kind conditions =>
    rw [condition_group] at h
    obtain ⟨text, u, nested, braced⟩ := bind_gives.1 h
    obtain ⟨inner, compiled, rfl⟩ := blockAt_gives nested
    obtain ⟨f, w, written, last⟩ := bind_gives.1 braced
    obtain ⟨hw, rfl⟩ := lift_gives.1 written
    obtain ⟨rfl, rfl⟩ := pure_gives.1 last
    obtain ⟨grown, as, rfl, each⟩ := all_anchored ⟨l.prefixes, _, false⟩ conditions hs compiled
    exact ⟨grown.silent _ _, fun parts _ => .group kind (.mk (each _ (covers_dedupe _))) hw⟩
  | union branches =>
    rw [condition] at h
    obtain ⟨texts, u, compiled, last⟩ := bind_gives.1 h
    obtain ⟨rfl, rfl⟩ := pure_gives.1 last
    obtain ⟨grown, each⟩ := blocks_anchored l.prefixes branches hs compiled
    exact ⟨grown.silent _ _, fun parts _ => .union each⟩
  | «exists» conditions connector negated =>
    rw [condition_exists] at h
    obtain ⟨text, u, nested, last⟩ := bind_gives.1 h
    obtain ⟨inner, compiled, rfl⟩ := blockAt_gives nested
    obtain ⟨rfl, rfl⟩ := pure_gives.1 last
    obtain ⟨grown, as, rfl, each⟩ := all_anchored ⟨l.prefixes, _, false⟩ conditions hs compiled
    exact ⟨grown.silent _ _,
      fun parts _ => .exists (.mk (each _ (covers_dedupe _))) connector negated⟩
  | path path o value connector => exact path_anchored h hs
  | stray order =>
    rw [condition] at h
    obtain ⟨c, u, hc, rest⟩ := bind_gives.1 h
    cases (lift_gives.1 rest).1

theorem all_anchored (l : Place) (cs : List Condition) {s t : Scope} {a : Clauses}
    (hs : s.Named) (h : Gives (all l cs) s a t) :
    s.Grows l.top a.patterns t ∧
      ∃ as, a = ⟨as.flatMap Clauses.patterns, as.flatMap Clauses.tests⟩ ∧
        ∀ parts, Covers parts a.patterns → AllAnchored l.prefixes s.subject parts cs as := by
  match cs with
  | [] =>
    rw [all] at h
    obtain ⟨rfl, rfl⟩ := pure_gives.1 h
    exact ⟨.refl _ _ t, [], rfl, fun parts _ => .nil⟩
  | c :: cs =>
    rw [all] at h
    obtain ⟨a, u, first, rest⟩ := bind_gives.1 h
    obtain ⟨b, v, others, last⟩ := bind_gives.1 rest
    obtain ⟨rfl, rfl⟩ := pure_gives.1 last
    obtain ⟨to_u, anchored⟩ := condition_anchored l c hs first
    obtain ⟨to_t, as, rfl, each⟩ := all_anchored l cs (to_u.named hs) others
    refine ⟨to_u.append to_t, a :: as, rfl, fun parts covers => ?_⟩
    obtain ⟨covers_first, covers_rest⟩ := Covers.of_append covers
    have behind := each parts covers_rest
    rw [to_u.subject] at behind
    exact .cons (anchored parts covers_first) behind

theorem blocks_anchored (p : Prefixes) (bs : List (List Condition)) {s t : Scope}
    {texts : List Fragment} (hs : s.Named) (h : Gives (blocks p bs) s texts t) :
    s.Grows false [] t ∧ List.Forall₂ (BlockAnchored p s.subject) bs texts := by
  match bs with
  | [] =>
    rw [blocks] at h
    obtain ⟨rfl, rfl⟩ := pure_gives.1 h
    exact ⟨.refl _ _ t, .nil⟩
  | b :: bs =>
    rw [blocks_cons] at h
    obtain ⟨text, u, nested, rest⟩ := bind_gives.1 h
    obtain ⟨inner, compiled, rfl⟩ := blockAt_gives nested
    obtain ⟨texts, w, others, last⟩ := bind_gives.1 rest
    obtain ⟨rfl, rfl⟩ := pure_gives.1 last
    obtain ⟨to_u, as, rfl, each⟩ := all_anchored ⟨p, _, false⟩ b hs compiled
    obtain ⟨to_t, anchored⟩ := blocks_anchored p bs (to_u.named hs) others
    rw [to_u.subject] at anchored
    exact ⟨(to_u.silent false []).append to_t, .cons (.mk (each _ (covers_dedupe _))) anchored⟩

end

end Compile

end SparqlClient
