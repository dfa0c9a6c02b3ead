-- The HTTP server (HttpServer.cpp): requests and responses, the route table,
-- and the coroutine that answers one connection. The characters of a target
-- or a header are its octets.
import Loomic.Json
import Loomic.Lib.Coroutine

open coroutines loomic.frame loomic.json

namespace loomic.http_server

/-! ## Requests and responses -/

inductive Verb
  | get
  | post
  | patch
  | delete_
  | options
  | other (method : String)
  deriving DecidableEq, Repr

inductive Status
  | ok
  | created
  | no_content
  | found
  | bad_request
  | unauthorized
  | forbidden
  | not_found
  | conflict
  | internal_server_error
  | service_unavailable
  deriving DecidableEq, Repr

/-- The fields that the handlers read. A header that is absent is empty. -/
structure Request where
  method : Verb
  target : String
  authorization : String := ""
  content_type : String := ""
  body : Bytes := []
  is_upgrade : Bool := false

/-- What follows the headers. The text that `dump` makes of a value is kept as the value. -/
inductive Body
  | text (s : String)
  | json (j : Json)

structure Response where
  status : Status
  headers : List (String × String) := []
  body : Body := .text ""

/-- `res.set(name, value)`: the field takes the place of one of the same name. -/
def Response.set (res : Response) (name value : String) : Response :=
  { res with headers := (name, value) :: res.headers.filter fun field => field.1 ≠ name }

def Response.header (res : Response) (name : String) : Option String := res.headers.lookup name

@[simp] theorem header_set (res : Response) (name value : String) :
    (res.set name value).header name = some value := by
  simp [Response.set, Response.header]

def make_json (status : Status) (body : Body) : Response :=
  ({ status := status, body := body } : Response).set "Content-Type" "application/json"

def make_error (status : Status) (msg : String) : Response :=
  make_json status (.json (.object [("error", .string msg)]))

/-! ## Matching a path -/

/-- What is left to split, with the part that has been read of it. Empty parts are dropped. -/
def split_path (delim : Char) (part : List Char) : List Char → List (List Char)
  | [] => if part = [] then [] else [part]
  | c :: s =>
    if c = delim then
      if part = [] then split_path delim [] s else part :: split_path delim [] s
    else split_path delim (part ++ [c]) s

abbrev PathParams := List (String × String)

def is_param (p : List Char) : Bool :=
  p.length ≥ 2 && p.head? == some '{' && p.getLast? == some '}'

/-- The name between the braces. -/
def param_name (p : List Char) : String := String.ofList ((p.drop 1).dropLast)

/-- The loop over the parts, with the parameters that it has bound. -/
def match_parts (params : PathParams) : List (List Char) → List (List Char) → Option PathParams
  | [], [] => some params
  | p :: pat_parts, t :: tgt_parts =>
    if is_param p then
      match_parts ((param_name p, String.ofList t) :: params) pat_parts tgt_parts
    else if p ≠ t then none
    else match_parts params pat_parts tgt_parts
  | _, _ => none

/-- The parameters, if the target matches. The query string is cut off before. -/
def match_path (pattern target : String) : Option PathParams :=
  match_parts [] (split_path '/' [] pattern.toList)
    (split_path '/' [] (target.toList.takeWhile (· ≠ '?')))

/-! ## The server -/

/-- A row of the route table. The handler is given by its name. -/
structure Route (ε : Type) where
  method : Verb
  path : String
  handler : ε

/-- The first route for the request, with the parameters of its path. -/
def find_route {ε : Type} (routes : List (Route ε)) (req : Request) : Option (ε × PathParams) :=
  routes.findSome? fun route =>
    if route.method ≠ req.method then none
    else (match_path route.path req.target).map fun params => (route.handler, params)

/-- The CORS and tracing headers. -/
def inject (request_id : String) (res : Response) : Response :=
  (((res.set "Access-Control-Allow-Origin" "*").set
    "Access-Control-Allow-Methods" "GET, POST, PUT, DELETE, OPTIONS").set
    "Access-Control-Allow-Headers" "Content-Type, Authorization").set "X-Request-ID" request_id

def preflight (request_id : String) : Response :=
  ((((({ status := .no_content } : Response).set "Access-Control-Allow-Origin" "*").set
    "Access-Control-Allow-Methods" "GET, POST, PUT, DELETE, OPTIONS").set
    "Access-Control-Allow-Headers" "Content-Type, Authorization").set
    "Access-Control-Max-Age" "86400").set "X-Request-ID" request_id

/-- The session of a WebSocket takes the connection over. -/
def Request.upgrades (req : Request) : Bool := req.is_upgrade && req.target == "/ws"

section Server

variable {Call : Type} {Answer : Call → Type} {ε : Type}

abbrev Handler (Call : Type) (Answer : Call → Type) :=
  Request → PathParams → Coroutine Call Answer Response

/-- The response of the first route, or the one for no route. -/
def respond (routes : List (Route ε)) (serve : ε → Handler Call Answer) (req : Request) :
    Coroutine Call Answer Response :=
  match find_route routes req with
  | none => .ret (make_error .not_found "not found")
  | some (handler, params) => serve handler req params

/-- `HttpServer::handle_connection`, from the request on: the responses that it writes. An
exception is swallowed. -/
def handle_connection (routes : List (Route ε)) (serve : ε → Handler Call Answer)
    (request_id : String) (req : Request) : Coroutine Call Answer (List Response) :=
  if req.upgrades then .ret []
  else if req.method = .options then .ret [preflight request_id]
  else ((respond routes serve req).bind fun res => .ret [inject request_id res]).catch (.ret [])

end Server

/-! ## What a match binds -/

theorem isSome_lookup_cons {α β : Type} [BEq α] [LawfulBEq α] {a k : α} {b : β}
    {l : List (α × β)} (h : k = a ∨ (l.lookup a).isSome) : (((k, b) :: l).lookup a).isSome := by
  rw [List.lookup_cons]
  split
  · rfl
  · rename_i hk
    rcases h with rfl | h
    · simp at hk
    · exact h

/-- A name of the pattern is bound in every match. -/
theorem match_parts_binds {name : String} {pat_parts tgt_parts : List (List Char)}
    {params params' : PathParams} (h : match_parts params pat_parts tgt_parts = some params')
    (hname : (params.lookup name).isSome ∨
      ∃ p ∈ pat_parts, is_param p ∧ param_name p = name) : (params'.lookup name).isSome := by
  fun_induction match_parts params pat_parts tgt_parts with
  | case1 params =>
    obtain rfl := Option.some.inj h
    simpa using hname
  | case2 params p pat_parts t tgt_parts hp ih =>
    apply ih h
    rcases hname with hname | ⟨q, hq, hparam, rfl⟩
    · exact .inl (isSome_lookup_cons (.inr hname))
    · rcases List.mem_cons.mp hq with rfl | hq
      · exact .inl (isSome_lookup_cons (.inl rfl))
      · exact .inr ⟨q, hq, hparam, rfl⟩
  | case3 params p pat_parts t tgt_parts hp hne => simp at h
  | case4 params p pat_parts t tgt_parts hp heq ih =>
    apply ih h
    rcases hname with hname | ⟨q, hq, hparam, rfl⟩
    · exact .inl hname
    · rcases List.mem_cons.mp hq with rfl | hq
      · exact absurd hparam hp
      · exact .inr ⟨q, hq, hparam, rfl⟩
  | case5 => simp at h

theorem match_path_binds {pattern target name : String} {params : PathParams}
    (h : match_path pattern target = some params)
    (hname : ∃ p ∈ split_path '/' [] pattern.toList, is_param p ∧ param_name p = name) :
    ∃ s, params.lookup name = some s :=
  Option.isSome_iff_exists.mp (match_parts_binds h (.inr hname))

/-! ## When a request is answered -/

section Answered

variable {Call : Type} {Answer : Call → Type} {ε : Type} {routes : List (Route ε)}
  {serve : ε → Handler Call Answer} {request_id : String} {req : Request}
  {answers : Answers Call Answer}

/-- One response is written when the handler returns one, and none when it throws. -/
theorem handle_connection_run (hreq : req.upgrades = false) :
    (handle_connection routes serve request_id req).run answers =
      some (if req.method = .options then [preflight request_id]
        else ((respond routes serve req).run answers).toList.map (inject request_id)) := by
  unfold handle_connection
  rw [hreq, if_neg Bool.false_ne_true]
  split
  · rfl
  · rw [run_catch_ret, run_bind_ret]
    cases (respond routes serve req).run answers <;> rfl

/-- What a route found for a request gives: it stands in the table, under the method of the
request, and its path matches. -/
theorem find_route_eq_some {handler : ε} {params : PathParams}
    (h : find_route routes req = some (handler, params)) :
    ∃ route ∈ routes, route.method = req.method ∧ route.handler = handler ∧
      match_path route.path req.target = some params := by
  obtain ⟨route, hmem, hroute⟩ := List.exists_of_findSome?_eq_some h
  split at hroute
  · cases hroute
  · rename_i hmethod
    obtain ⟨params', hmatch, heq⟩ := Option.map_eq_some_iff.mp hroute
    cases heq
    exact ⟨route, hmem, not_not.mp hmethod, rfl, hmatch⟩

end Answered

end loomic.http_server
