import Mathlib.Data.List.DropRight
import QueryGate.Gateway.Database
import QueryGate.Proofs.Encoding.Form

/-! The address of a request to the database is followed by a query in form encoding. Whoever reads
it finds the texts of the query and of the database name as they were given, and nothing else but
the precision. -/

namespace QueryGate

namespace Http

open Encoding.Form (all_ne_of_not_mem)

/-- The query of a URL in which nothing looks like a scheme or a fragment. -/
structure IsQuery (query : List Char) : Prop where
  no_scheme : ':' ∉ query
  no_fragment : '#' ∉ query

variable {url query : List Char}

theorem withoutFragment_of_not_mem (none : '#' ∉ url) : withoutFragment url = url :=
  List.takeWhile_eq_self_iff.mpr (all_ne_of_not_mem none)

theorem dropWhile_question {p : Char → Bool} (stops : p '?' = false) :
    (url ++ '?' :: query).dropWhile p = url.dropWhile p ++ '?' :: query := by
  rw [List.dropWhile_append]
  split
  · next empty => rw [List.isEmpty_iff.mp empty, List.dropWhile_cons_of_neg (by simp [stops]), List.nil_append]
  · rfl

/-- Only what stands before the query is cut off with the origin. -/
theorem withoutOrigin_query (asked : IsQuery query) :
    ∃ path, path <:+ url ∧ withoutOrigin (url ++ '?' :: query) = path ++ '?' :: query := by
  unfold withoutOrigin
  split
  · exact ⟨url, List.suffix_rfl, rfl⟩
  split
  case h_2 => exact ⟨url, List.suffix_rfl, rfl⟩
  case h_1 rest found =>
    rw [List.dropWhile_append] at found
    split at found
    case isTrue =>
      -- a colon would stand in the query
      have none := List.dropWhile_eq_nil_iff.mpr (all_ne_of_not_mem asked.no_scheme)
      rw [List.dropWhile_cons_of_pos (by decide), none] at found
      cases found
    case isFalse =>
      have behind : url.dropWhile (· ≠ ':') <:+ url := List.dropWhile_suffix _
      generalize url.dropWhile (· ≠ ':') = others at found behind
      match others with
      | [] | [_] | [_, _] => simp at found
      | _ :: _ :: _ :: rest' =>
        simp only [List.cons_append, List.cons.injEq] at found
        obtain ⟨-, -, -, rfl⟩ := found
        rw [dropWhile_question (by decide)]
        refine ⟨_, (List.dropWhile_suffix _).trans (.trans ?_ behind), rfl⟩
        exact (List.suffix_cons _ _).trans ((List.suffix_cons _ _).trans (List.suffix_cons _ _))

/-- The query of a target is what stands behind its first question mark. -/
theorem query_of_target {target : String} (cut : target.toList = url ++ '?' :: query) (plain : '?' ∉ url ∧ '#' ∉ url)
    (asked : IsQuery query) : Request.query { target } = Encoding.Form.decode (Text.Utf8.encode query) := by
  have whole : '#' ∉ url ++ '?' :: query := by
    rw [List.mem_append, List.mem_cons]
    rintro (within | same | within)
    · exact plain.2 within
    · exact absurd same (by decide)
    · exact asked.no_fragment within
  obtain ⟨path, within, same⟩ := @withoutOrigin_query url query asked
  have none : '?' ∉ path := fun member => plain.1 (within.subset member)
  rw [Request.query, Request.pathAndQuery, cut, withoutFragment_of_not_mem whole, same,
    List.dropWhile_append_of_pos (all_ne_of_not_mem none), List.dropWhile_cons_of_neg (by decide), List.drop_one,
    List.tail_cons]

end Http

namespace Gateway.Database

open Encoding

def Request.target (request : Request) : String :=
  request.url ++ "?" ++ request.query

variable {settings : Config.Database} {q db : String}

theorem trimSlashes_spec (addr : String) :
    ∃ slashes : String, addr = trimSlashes addr ++ slashes ∧ (∀ c ∈ slashes.toList, c = '/') ∧
      (trimSlashes addr).toList.getLast? ≠ some '/' := by
  have kept : (trimSlashes addr).toList = addr.toList.rdropWhile (· = '/') := String.toList_ofList
  refine ⟨String.ofList (addr.toList.rtakeWhile (· = '/')), ?_, ?_, ?_⟩
  · rw [← String.toList_inj, String.toList_append, kept, String.toList_ofList, List.rdropWhile_append_rtakeWhile]
  · rw [String.toList_ofList]
    intro c member
    have slash := List.mem_rtakeWhile_imp member
    exact of_decide_eq_true slash
  · rw [kept]
    intro last
    obtain ⟨some, same⟩ := List.mem_getLast?_eq_getLast last
    refine List.rdropWhile_last_not _ _ some ?_
    rw [← same]
    rfl

theorem request_query (settings : Config.Database) (q db : String) :
    (request settings q db).query.toList = Form.encode [("q", q), ("db", db), ("epoch", settings.epoch)] :=
  String.toList_ofList

theorem isQuery_encode (pairs : List (String × String)) : Http.IsQuery (Form.encode pairs) := by
  have none {d : Char} (separates : d ∈ Form.separators) (other : d ≠ '=' ∧ d ≠ '&') : d ∉ Form.encode pairs := by
    intro member
    rcases Form.mem_encode member with written | equals | ampersand
    · exact written.ne separates rfl
    · exact other.1 equals
    · exact other.2 ampersand
  exact ⟨none (by decide) (by decide), none (by decide) (by decide)⟩

theorem decode_request (settings : Config.Database) (q db : String) :
    Form.decode (utf8 (request settings q db).query) = [("q", q), ("db", db), ("epoch", settings.epoch)] := by
  rw [utf8, request_query]
  exact Form.decode_encode _

theorem not_mem_url {c : Char} (settings : Config.Database) (q db : String) (plain : c ∉ settings.addr.toList)
    (other : c ∉ "/query".toList) : c ∉ (request settings q db).url.toList := by
  obtain ⟨slashes, whole, -, -⟩ := trimSlashes_spec settings.addr
  rw [whole, String.toList_append, List.mem_append, not_or] at plain
  show c ∉ (trimSlashes settings.addr ++ "/query").toList
  rw [String.toList_append, List.mem_append, not_or]
  exact ⟨plain.1, other⟩

theorem query_target (settings : Config.Database) (q db : String)
    (plain : '?' ∉ settings.addr.toList ∧ '#' ∉ settings.addr.toList) :
    Http.Request.query { target := (request settings q db).target } =
      [("q", q), ("db", db), ("epoch", settings.epoch)] := by
  have cut : (request settings q db).target.toList =
      (request settings q db).url.toList ++ '?' :: (request settings q db).query.toList := by
    rw [Request.target, String.toList_append, String.toList_append, List.append_assoc]
    rfl
  have question := not_mem_url settings q db plain.1 (by decide)
  have fragment := not_mem_url settings q db plain.2 (by decide)
  have asked : Http.IsQuery (request settings q db).query.toList := by
    rw [request_query]
    exact isQuery_encode _
  rw [Http.query_of_target cut ⟨question, fragment⟩ asked]
  exact decode_request settings q db

/-- A request says what was authorized, whatever characters that has. It goes to the address without the slashes at
its end, and its query is read as the text of the query, the name of the database and the precision, both by itself
and behind the address. So requests for different texts are different. -/
theorem request_says_what_was_authorized (settings : Config.Database) (q db : String)
    (plain : '?' ∉ settings.addr.toList ∧ '#' ∉ settings.addr.toList) :
    let sent := request settings q db
    let pairs := [("q", q), ("db", db), ("epoch", settings.epoch)]
    (∃ base slashes : String, settings.addr = base ++ slashes ∧ (∀ c ∈ slashes.toList, c = '/') ∧
      base.toList.getLast? ≠ some '/' ∧ sent.url = base ++ "/query") ∧
    Form.decode (utf8 sent.query) = pairs ∧
    Http.Request.query { target := sent.target } = pairs ∧
    ∀ (other : Config.Database) q' db', other.addr = settings.addr →
      (request other q' db').target = sent.target → q' = q ∧ db' = db := by
  intro sent pairs
  refine ⟨?_, decode_request settings q db, query_target settings q db plain, ?_⟩
  · obtain ⟨slashes, whole, each, last⟩ := trimSlashes_spec settings.addr
    exact ⟨trimSlashes settings.addr, slashes, whole, each, last, rfl⟩
  · intro other q' db' same equal
    have first := query_target other q' db' (by rw [same]; exact plain)
    rw [equal, query_target settings q db plain] at first
    simp only [List.cons.injEq, Prod.mk.injEq, true_and] at first
    exact ⟨first.1.symm, first.2.1.symm⟩

/-- Two slashes at the end of the address, and a query in which another database and another precision seem to be
given. -/
theorem marks_in_query_say_nothing :
    let settings : Config.Database := { addr := "http://localhost:8086//" }
    let q := "SELECT 'ä' + 1 %2B #\n&db=other&epoch=s"
    let sent := request settings q "plant"
    let pairs := [("q", q), ("db", "plant"), ("epoch", "ns")]
    ('?' ∉ settings.addr.toList ∧ '#' ∉ settings.addr.toList) ∧ sent.url = "http://localhost:8086/query" ∧
      Form.decode (utf8 sent.query) = pairs ∧ Http.Request.query { target := sent.target } = pairs := by
  intro settings q sent pairs
  have plain : '?' ∉ settings.addr.toList ∧ '#' ∉ settings.addr.toList := by decide
  obtain ⟨-, decoded, read, -⟩ := request_says_what_was_authorized settings q "plant" plain
  exact ⟨plain, by decide, decoded, read⟩

end Gateway.Database
end QueryGate
