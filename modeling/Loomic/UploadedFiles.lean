-- The files that are uploaded (MessagesHandler.cpp): the name under which an
-- upload is stored, the URL that is returned for it, and the request that
-- fetches it by that URL.
import Loomic.HttpHandlers
import Loomic.PathRendering

open loomic.auth_handler loomic.frame loomic.http_handlers loomic.http_server
  loomic.path_rendering loomic.uuid

namespace loomic.uploaded_files

/-! ## Names and targets -/

/-- Octets as the characters of a target. -/
def text (s : Bytes) : String := String.ofList (s.map fun b => Char.ofNat b.toNat)

/-- The name under which `upload_file` stores a file. -/
def out_name (draws : Draws) (filename : Bytes) : Bytes :=
  octets (generate_uuid draws) ++ extract_extension filename

theorem upload_file_stores (gen : Generated) (filename file_data : Bytes) :
    ∃ k, upload_file gen filename file_data =
      .await (.upload (out_name gen.draws filename)
        (content_type_for (out_name gen.draws filename)) file_data) k :=
  ⟨_, rfl⟩

/-- The names that `get_file` rejects as path traversal. -/
def Rejected (uuid : String) : Prop := contains uuid "/" ∨ contains uuid "\\" ∨ contains uuid ".."

theorem get_file_rejected (services : Services) (blob_cfg : AzureBlobConfig) (req : Request)
    (params : PathParams) (uuid : String) (hcfg : blob_cfg.missing = false)
    (hparams : params.lookup "uuid" = some uuid) (h : Rejected uuid) :
    get_file services blob_cfg req params =
      with_user services req fun _ => reply (make_error .bad_request "invalid filename") := by
  unfold Rejected at h
  simp [get_file, hcfg, hparams, h, coroutines.Coroutine.of]

theorem octet_char (b : UInt8) : (Char.ofNat b.toNat).toNat = b.toNat := by
  have hlt := b.toNat_lt
  have hvalid : b.toNat.isValidChar := .inl (by omega)
  rw [Char.ofNat, dif_pos hvalid]
  rfl

theorem octets_text (s : Bytes) : octets (text s) = s := by
  have hid :
      ((fun c : Char => UInt8.ofNat c.toNat) ∘ fun b : UInt8 => Char.ofNat b.toNat) = id := by
    funext b
    simp [octet_char]
  simp [octets, text, hid]

theorem mem_text {c : Char} {b : UInt8} (hc : c.toNat = b.toNat) (s : Bytes) :
    c ∈ (text s).toList ↔ b ∈ s := by
  rw [text, String.toList_ofList, List.mem_map]
  constructor
  · rintro ⟨d, hd, rfl⟩
    rw [octet_char] at hc
    rwa [← UInt8.toNat_inj.1 hc]
  · intro h
    refine ⟨b, h, ?_⟩
    rw [← hc, Char.ofNat_toNat]

/-! ## The name -/

/-- The text behind the last dot of a file name. -/
def AfterLastDot (filename after : Bytes) : Prop :=
  ∃ before, filename = before ++ 0x2E :: after ∧ 0x2E ∉ after

theorem extension_of_dot {filename after : Bytes} (h : AfterLastDot filename after) :
    extract_extension filename = 0x2E :: after := by
  obtain ⟨before, rfl, hafter⟩ := h
  have hall : ∀ b ∈ after.reverse, decide (b ≠ 0x2E) = true := by
    intro b hb
    have hne : b ≠ 0x2E := fun heq => hafter (heq ▸ List.mem_reverse.1 hb)
    simpa using hne
  have hreverse : (before ++ 0x2E :: after).reverse = after.reverse ++ 0x2E :: before.reverse := by
    simp
  rw [extract_extension, if_pos (by simp), hreverse, List.takeWhile_append_of_pos hall]
  simp

/-- A name without a dot has no extension. -/
theorem extension_cases (filename : Bytes) :
    (0x2E ∉ filename ∧ extract_extension filename = []) ∨
      ∃ after, AfterLastDot filename after ∧ extract_extension filename = 0x2E :: after := by
  by_cases h : 0x2E ∈ filename
  · obtain ⟨after, before, hsplit, hafter⟩ :=
      List.eq_append_cons_of_mem (List.mem_reverse.2 h)
    have hdot : AfterLastDot filename after.reverse := by
      refine ⟨before.reverse, ?_, by simpa using hafter⟩
      have := congrArg List.reverse hsplit
      simpa using this
    exact .inr ⟨_, hdot, extension_of_dot hdot⟩
  · exact .inl ⟨h, by rw [extract_extension, if_neg h]⟩

theorem mem_hex {c : Char} {w n : Nat} (h : c ∈ hex w n) : ∃ k : Fin 16, c = hex_digit k := by
  induction w generalizing n with
  | zero => simp [hex] at h
  | succ w ih =>
    rcases List.mem_append.1 h with h | h
    · exact ih h
    · exact ⟨⟨n % 16, by omega⟩, List.mem_singleton.1 h⟩

theorem mem_generate_uuid {c : Char} {draws : Draws} (h : c ∈ (generate_uuid draws).toList) :
    ∃ k : Fin 16, c = hex_digit k := by
  rw [generate_uuid, String.toList_ofList] at h
  simp only [List.mem_append] at h
  rcases h with ((h | h) | h) | h <;> exact mem_hex h

/-- The characters that are no part of a UUID. -/
theorem uuid_plain {b : UInt8} (hb : b = 0x2E ∨ b = 0x2F ∨ b = 0x3F ∨ b = 0x5C) (draws : Draws) :
    b ∉ octets (generate_uuid draws) := by
  intro h
  obtain ⟨c, hc, rfl⟩ := List.mem_map.1 h
  obtain ⟨k, rfl⟩ := mem_generate_uuid hc
  have hlow : ∀ k : Fin 16, 0x2F < (hex_digit k).toNat ∧ (hex_digit k).toNat ≠ 0x3F ∧
      (hex_digit k).toNat ≠ 0x5C ∧ (hex_digit k).toNat < 0x80 := by decide
  obtain ⟨hslash, hquery, hback, hascii⟩ := hlow k
  have hvalue : (UInt8.ofNat (hex_digit k).toNat).toNat = (hex_digit k).toNat := by
    rw [UInt8.toNat_ofNat', Nat.mod_eq_of_lt (by omega)]
  rcases hb with hb | hb | hb | hb <;> rw [hb] at hvalue <;> simp at hvalue <;> omega

theorem out_name_ne (draws : Draws) (filename : Bytes) : out_name draws filename ≠ [] := by
  intro h
  have huuid : octets (generate_uuid draws) = [] := (List.append_eq_nil_iff.1 h).1
  rw [octets, generate_uuid, String.toList_ofList, List.map_eq_nil_iff,
    List.append_eq_nil_iff] at huuid
  exact List.append_ne_nil_of_right_ne_nil _ (List.cons_ne_nil _ _) huuid.2

/-- The name has these octets where the text behind the last dot has them. -/
theorem mem_out_name {b : UInt8} (hb : b = 0x2F ∨ b = 0x3F ∨ b = 0x5C) (draws : Draws)
    (filename : Bytes) :
    b ∈ out_name draws filename ↔ ∃ after, AfterLastDot filename after ∧ b ∈ after := by
  have hne : b ≠ 0x2E := by
    rcases hb with rfl | rfl | rfl <;> decide
  rw [out_name, List.mem_append, or_iff_right (uuid_plain (.inr hb) draws)]
  constructor
  · intro h
    rcases extension_cases filename with ⟨-, hext⟩ | ⟨after, hdot, hext⟩
    · simp [hext] at h
    · rw [hext] at h
      exact ⟨after, hdot, (List.mem_cons.1 h).resolve_left hne⟩
  · rintro ⟨after, hdot, h⟩
    rw [extension_of_dot hdot]
    exact List.mem_cons_of_mem _ h

/-! ## The traversal check -/

theorem cut_isSome (pattern s : Bytes) : (cut pattern s).isSome ↔ pattern <:+: s := by
  induction s with
  | nil =>
    rw [cut, List.infix_nil]
    by_cases h : pattern = [] <;> simp [h]
  | cons b s ih =>
    rw [cut, List.infix_cons_iff]
    by_cases h : pattern.isPrefixOf (b :: s)
    · simp [h, List.isPrefixOf_iff_prefix.1 h]
    · have hno : ¬ pattern <+: b :: s := fun hp => h (List.isPrefixOf_iff_prefix.2 hp)
      rw [if_neg h, Option.isSome_map, ih, or_iff_right hno]

theorem contains_text (s : Bytes) (pattern : String) :
    contains (text s) pattern ↔ octets pattern <:+: s := by
  rw [contains, octets_text, cut_isSome]

theorem singleton_infix {b : UInt8} {s : Bytes} : [b] <:+: s ↔ b ∈ s := by
  constructor
  · intro h
    exact h.subset (by simp)
  · intro h
    obtain ⟨before, after, rfl⟩ := List.append_of_mem h
    exact ⟨before, after, by simp⟩

/-- The name has one dot at most, so only slashes are rejected. -/
theorem two_dots_not_within (draws : Draws) (filename : Bytes) :
    ¬ ([0x2E, 0x2E] : Bytes) <:+: out_name draws filename := by
  rintro ⟨before, after, h⟩
  have hcount := congrArg (List.count 0x2E) h
  have huuid : (octets (generate_uuid draws)).count 0x2E = 0 :=
    List.count_eq_zero.2 (uuid_plain (.inl rfl) draws)
  have hext : (extract_extension filename).count 0x2E ≤ 1 := by
    rcases extension_cases filename with ⟨-, hext⟩ | ⟨rest, ⟨_, -, hrest⟩, hext⟩
    · simp [hext]
    · rw [hext, List.count_cons_self, List.count_eq_zero.2 hrest]
  simp only [out_name, List.count_append, huuid] at hcount
  simp at hcount
  omega

theorem rejected_text (draws : Draws) (filename : Bytes) :
    Rejected (text (out_name draws filename)) ↔
      0x2F ∈ out_name draws filename ∨ 0x5C ∈ out_name draws filename := by
  have hslash : octets "/" = [0x2F] := by decide
  have hback : octets "\\" = [0x5C] := by decide
  have hdots : octets ".." = [0x2E, 0x2E] := by decide
  rw [Rejected, contains_text, contains_text, contains_text, hslash, hback, hdots,
    singleton_infix, singleton_infix]
  simp [two_dots_not_within]

/-! ## The route -/

/-- The request that fetches the file by its URL. -/
def fetch (draws : Draws) (filename : Bytes) : Request :=
  { method := .get, target := "/files/" ++ text (out_name draws filename) }

theorem fetch_target (draws : Draws) (filename : Bytes) :
    (fetch draws filename).target.toList =
      '/' :: ("files".toList ++ '/' :: (text (out_name draws filename)).toList) := by
  simp [fetch]

/-- A name with neither a slash nor a question mark is the second of two segments. -/
theorem fetch_segments {draws : Draws} {filename : Bytes}
    (hslash : 0x2F ∉ out_name draws filename) (hquery : 0x3F ∉ out_name draws filename) :
    segments (cut_query (fetch draws filename).target.toList) =
      ["files".toList, (text (out_name draws filename)).toList] := by
  have hslash' : '/' ∉ (text (out_name draws filename)).toList := by
    rwa [mem_text (b := 0x2F) (by decide)]
  have hquery' : '?' ∉ (fetch draws filename).target.toList := by
    rw [fetch_target]
    simp [mem_text (c := '?') (b := 0x3F) (by decide), hquery]
  have hne : (text (out_name draws filename)).toList ≠ [] := by
    simp [text, out_name_ne]
  have hcut := cut_query_append hquery' none
  rw [Option.map_none, Option.getD_none, List.append_nil] at hcut
  rw [hcut, fetch_target, segments_slash, segments_cons (by decide) (by decide),
    segments_single hne hslash']

/-- The file is fetched by its URL: the request is routed to `get_file` with exactly the name
that was stored, which is not rejected. -/
def Fetched (draws : Draws) (filename : Bytes) : Prop :=
  ∃ params, find_route routes (fetch draws filename) = some (.get_file, params) ∧
    params.lookup "uuid" = some (text (out_name draws filename)) ∧
    ¬ Rejected (text (out_name draws filename))

/-- A pattern whose first segment is a literal other than `files`. -/
def Elsewhere (pattern : String) : Bool :=
  (segments pattern.toList).head?.any fun p => !is_param p && p != "files".toList

theorem elsewhere_no_match {pattern target : String} {ts : List (List Char)}
    (h : Elsewhere pattern) (ht : segments (cut_query target.toList) = "files".toList :: ts) :
    match_path pattern target = none := by
  unfold Elsewhere at h
  rw [match_path_eq, ht]
  cases hp : segments pattern.toList with
  | nil => simp [hp] at h
  | cons p rest =>
    simp only [hp, List.head?_cons, Option.any_some, Bool.and_eq_true, Bool.not_eq_true',
      bne_iff_ne] at h
    rw [match_parts, if_neg (by simp [h.1]), if_pos h.2]

/-- The pattern of the route matches two segments, of which the first is `files`. -/
theorem match_files_uuid {segs : List (List Char)} {params : PathParams} :
    match_parts [] (segments "/files/{uuid}".toList) segs = some params ↔
      ∃ s, segs = ["files".toList, s] ∧ params = [("uuid", String.ofList s)] := by
  have hpattern : segments "/files/{uuid}".toList = ["files".toList, "{uuid}".toList] := by decide
  have hliteral : is_param "files".toList = false := by decide
  have hparam : is_param "{uuid}".toList = true := by decide
  have hname : param_name "{uuid}".toList = "uuid" := by decide
  rw [hpattern]
  generalize "files".toList = files, "{uuid}".toList = uuid at hliteral hparam hname
  rcases segs with _ | ⟨s1, _ | ⟨s2, _ | ⟨s3, rest⟩⟩⟩
  · simp [match_parts]
  · simp [match_parts, hliteral]
  · simp [match_parts, hliteral, hparam, hname, eq_comm]
  · simp [match_parts, hliteral, hparam]

theorem find_fetch {draws : Draws} {filename : Bytes}
    (hslash : 0x2F ∉ out_name draws filename) (hquery : 0x3F ∉ out_name draws filename) :
    find_route routes (fetch draws filename) =
      some (.get_file, [("uuid", text (out_name draws filename))]) := by
  have hsplit : routes = routes.take 15 ++
      (⟨.get, "/files/{uuid}", .get_file⟩ :: routes.drop 16 : List (Route Endpoint)) := rfl
  have hsegments := fetch_segments hslash hquery
  have helsewhere : ∀ route ∈ routes.take 15, Elsewhere route.path := by decide
  have hearlier : (routes.take 15).findSome? (fun route =>
      if route.method ≠ (fetch draws filename).method then none
      else (match_path route.path (fetch draws filename).target).map
        fun params => (route.handler, params)) = none := by
    refine List.findSome?_eq_none_iff.2 fun route hroute => ?_
    have hnone := elsewhere_no_match (helsewhere route hroute) hsegments
    rw [hnone]
    simp
  have hfiles : match_path "/files/{uuid}" (fetch draws filename).target =
      some [("uuid", text (out_name draws filename))] := by
    rw [match_path_eq, hsegments, match_files_uuid]
    exact ⟨_, rfl, by rw [String.ofList_toList]⟩
  rw [find_route, hsplit, List.findSome?_append, hearlier, Option.none_or, List.findSome?_cons,
    hfiles]
  simp [fetch]

/-- A name that is bound whole has neither a slash nor a question mark. -/
theorem bound_plain {draws : Draws} {filename : Bytes} {params : PathParams}
    (hfind : find_route routes (fetch draws filename) = some (.get_file, params))
    (hbound : params.lookup "uuid" = some (text (out_name draws filename))) :
    0x2F ∉ out_name draws filename ∧ 0x3F ∉ out_name draws filename := by
  obtain ⟨route, hroute, -, hhandler, hmatch⟩ := find_route_eq_some hfind
  have hpath : ∀ route ∈ routes, route.handler = .get_file → route.path = "/files/{uuid}" := by
    decide
  rw [hpath route hroute hhandler, match_path_eq, match_files_uuid] at hmatch
  obtain ⟨s, hsegs, rfl⟩ := hmatch
  have hs : (text (out_name draws filename)).toList = s := by
    have hname : String.ofList s = text (out_name draws filename) := by simpa using hbound
    rw [← hname, String.toList_ofList]
  have hmem : s ∈ segments (cut_query (fetch draws filename).target.toList) := by
    simp [hsegs]
  rw [← mem_text (c := '/') (by decide), ← mem_text (c := '?') (by decide), hs]
  refine ⟨(segment_plain hmem).2, fun hquery => ?_⟩
  simpa using List.mem_takeWhile_imp (mem_of_mem_segments hmem hquery)

/-- An uploaded file is fetched by its URL exactly if the text behind the last dot of its name
has no slash, no backslash and no question mark. -/
theorem fetched_iff_the_extension_is_plain (draws : Draws) (filename : Bytes) :
    Fetched draws filename ↔
      ∀ after, AfterLastDot filename after → 0x2F ∉ after ∧ 0x3F ∉ after ∧ 0x5C ∉ after := by
  have hmem : ∀ {b : UInt8}, b = 0x2F ∨ b = 0x3F ∨ b = 0x5C →
      (b ∉ out_name draws filename ↔ ∀ after, AfterLastDot filename after → b ∉ after) := by
    intro b hb
    rw [mem_out_name hb]
    simp
  have hslash := hmem (b := 0x2F) (by simp)
  have hquery := hmem (b := 0x3F) (by simp)
  have hback := hmem (b := 0x5C) (by simp)
  constructor
  · rintro ⟨params, hfind, hbound, hpass⟩
    obtain ⟨hno_slash, hno_query⟩ := bound_plain hfind hbound
    rw [rejected_text, not_or] at hpass
    exact fun after hafter =>
      ⟨hslash.1 hno_slash after hafter, hquery.1 hno_query after hafter,
        hback.1 hpass.2 after hafter⟩
  · intro hplain
    have hno_slash := hslash.2 fun after hafter => (hplain after hafter).1
    have hno_query := hquery.2 fun after hafter => (hplain after hafter).2.1
    have hno_back := hback.2 fun after hafter => (hplain after hafter).2.2
    refine ⟨_, find_fetch hno_slash hno_query, by simp, ?_⟩
    rw [rejected_text, not_or]
    exact ⟨hno_slash, hno_back⟩

/-- A file `a.b?c` is stored under a name with a question mark, where the target is cut. -/
theorem a_question_mark_is_not_fetched : ¬ Fetched {} (octets "a.b?c") := by
  rintro ⟨params, hfind, hbound, -⟩
  exact (bound_plain hfind hbound).2 (by decide)

end loomic.uploaded_files
