import SparqlClient.Proofs.Store.Endpoints

/-! Where the graphs of a store are kept. Main statement: slashes at the end of an endpoint do not
count, the endpoint for updates has the same graphs as the one for queries, and so have all services
behind one base, whatever the segments of the base are called. -/

namespace SparqlClient

open Text

namespace Url

def slashes (n : Nat) : String := String.ofList (List.replicate n '/')

theorem trimSlashes_slashes (e : String) (n : Nat) :
    trimSlashes (e ++ slashes n) = trimSlashes e := by
  have all : ∀ c ∈ List.replicate n '/', isSlash c := by
    intro c member
    rw [List.eq_of_mem_replicate member]
    rfl
  rw [trimSlashes, trimEndOf, String.toList_append, slashes, String.toList_ofList,
    dropEndWhile_append_of_pos all, ← trimEndOf, ← trimSlashes]

/-- What services stand behind: something on one line that does not end with a slash. -/
structure IsBase (base : String) : Prop where
  filled : base ≠ ""
  line : '\n' ∉ base.toList
  last : base.toList.getLast? ≠ some '/'

theorem IsBase.trimSlashes {base : String} (own : IsBase base) : trimSlashes base = base := by
  have last : ∀ c ∈ base.toList.getLast?, isSlash c = false := by
    intro c ended
    refine decide_eq_false fun slash => own.last ?_
    rw [← slash]
    exact ended
  rw [Url.trimSlashes, trimEndOf, dropEndWhile_eq_self last, String.ofList_toList]

end Url

namespace Vendor

open Url

def queryServices : List String := ["sparql", "query", "update"]

def graphsAt (base : String) : Vendor → String
  | .generic => base ++ "/data"
  | .fuseki | .blazegraph => base

theorem graphEndpoint_congr {v : Vendor} {e e' : String}
    (same : trimSlashes e = trimSlashes e') : v.graphEndpoint e = v.graphEndpoint e' := by
  unfold graphEndpoint
  rw [same]

theorem graphEndpoint_slashes (v : Vendor) (e : String) (n : Nat) :
    v.graphEndpoint (e ++ slashes n) = v.graphEndpoint e :=
  graphEndpoint_congr (trimSlashes_slashes e n)

theorem graphEndpoint_update (v : Vendor) (e : String) :
    v.graphEndpoint (v.updateEndpoint e) = v.graphEndpoint e := by
  cases v with
  | blazegraph => rfl
  | generic => rfl
  | fuseki =>
    unfold updateEndpoint
    simp only
    split
    · rename_i root found
      obtain ⟨service, known, text⟩ :
          ∃ service ∈ services, trimSlashes e = root ++ "/" ++ service := by
        rcases Option.or_eq_some_iff.1 found with query | ⟨-, query⟩
        · refine ⟨"sparql", by decide, ?_⟩
          simpa [String.append_assoc] using dropEnd?_eq_some_iff.1 query
        · refine ⟨"query", by decide, ?_⟩
          simpa [String.append_assoc] using dropEnd?_eq_some_iff.1 query
      have own : Vendor.fuseki.graphEndpoint e = trimSlashes root := by
        rw [← graphEndpoint_dataset known]
        exact graphEndpoint_congr (by rw [trimSlashes_service known, text])
      have update : root ++ "/update" = root ++ "/" ++ "update" := by
        rw [String.append_assoc]
        rfl
      rw [own, update, graphEndpoint_dataset (by decide)]
    · rfl

theorem queryRoot?_service {base service : String} (own : IsBase base)
    (known : service ∈ queryServices) : queryRoot? (base ++ "/" ++ service) = some base := by
  have apart {e : String} (filled : e.toList ≠ [])
      (other : some (service.toList.getLast?.getD '/') ≠ e.toList.getLast?) :
      dropEnd? (base ++ "/" ++ service) e = none := by
    refine dropEnd?_eq_none filled ?_
    simpa [String.toList_append, List.getLast?_append, List.getLast?_cons] using other
  have here : dropEnd? (base ++ "/" ++ service) ("/" ++ service) = some base :=
    dropEnd?_eq_some_iff.2 (String.append_assoc ..)
  have found : ["/sparql", "/update", "/query"].findSome?
      (dropEnd? (base ++ "/" ++ service) ·) = some base := by
    simp only [queryServices, List.mem_cons, List.not_mem_nil, or_false] at known
    rcases known with rfl | rfl | rfl
    · have first : dropEnd? (base ++ "/" ++ "sparql") "/sparql" = some base := here
      simp only [List.findSome?_cons, first]
    · have third : dropEnd? (base ++ "/" ++ "query") "/query" = some base := here
      simp only [List.findSome?_cons, apart (e := "/sparql") (by decide) (by decide),
        apart (e := "/update") (by decide) (by decide), third]
    · have second : dropEnd? (base ++ "/" ++ "update") "/update" = some base := here
      simp only [List.findSome?_cons, apart (e := "/sparql") (by decide) (by decide), second]
  have unbroken : ∀ service ∈ queryServices,
      some (service.toList.getLast?.getD '/') ≠ "\n".toList.getLast? := by decide
  have line : dropEnd? (base ++ "/" ++ service) "\n" = none :=
    apart (by decide) (unbroken service known)
  unfold queryRoot?
  simp only [line, Option.getD_none]
  rw [found]
  simp [own.filled, own.line]

theorem graphEndpoint_of_queryRoot? {e root : String}
    (found : queryRoot? (trimSlashes e) = some root) :
    Vendor.generic.graphEndpoint e = root ++ "/data" := by
  unfold graphEndpoint
  simp only [found]

theorem graphEndpoint_service {v : Vendor} {base service : String} (other : v ≠ .blazegraph)
    (own : IsBase base) (known : service ∈ queryServices) :
    v.graphEndpoint (base ++ "/" ++ service) = v.graphsAt base := by
  have inside : service ∈ services := by
    revert service
    decide
  cases v with
  | blazegraph => exact absurd rfl other
  | fuseki => exact (graphEndpoint_dataset inside).trans own.trimSlashes
  | generic =>
    refine graphEndpoint_of_queryRoot? ?_
    rw [trimSlashes_service inside, queryRoot?_service own known]

end Vendor

/-- An endpoint for graphs does not hang on how an endpoint is written, nor on which of the
services behind a base it is of. -/
theorem graphs_of_endpoint (v : Vendor) :
    (∀ e n, v.graphEndpoint (e ++ Url.slashes n) = v.graphEndpoint e) ∧
    (∀ e, v.graphEndpoint (v.updateEndpoint e) = v.graphEndpoint e) ∧
    (v ≠ .blazegraph → ∀ base, Url.IsBase base → ∀ service ∈ Vendor.queryServices, ∀ n,
      v.graphEndpoint (base ++ "/" ++ service ++ Url.slashes n) = v.graphsAt base) := by
  refine ⟨v.graphEndpoint_slashes, v.graphEndpoint_update, ?_⟩
  intro other base own service known n
  rw [v.graphEndpoint_slashes, Vendor.graphEndpoint_service other own known]

theorem graphs_of_endpoint_nested : Vendor.generic ≠ .blazegraph ∧
    Url.IsBase "http://h/sparql/data" ∧ "query" ∈ Vendor.queryServices ∧
    Vendor.generic.graphEndpoint ("http://h/sparql/data" ++ "/" ++ "query" ++ Url.slashes 2) =
      "http://h/sparql/data/data" := by
  have other : Vendor.generic ≠ .blazegraph := by decide
  have base : Url.IsBase "http://h/sparql/data" := ⟨by decide, by decide, by decide⟩
  have known : "query" ∈ Vendor.queryServices := by decide
  exact ⟨other, base, known, (graphs_of_endpoint .generic).2.2 other _ base _ known 2⟩

end SparqlClient
