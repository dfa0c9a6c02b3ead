-- The bodies of uploads (MessagesHandler.cpp). A multipart body is encoded from
-- its parts; the parser reads the first part only, and takes the first
-- `filename="` in its headers for the name of the file.
import Loomic.UploadedFiles

open loomic.frame loomic.http_handlers

namespace loomic.multipart

/-! ## Encoded bodies -/

def CRLF : Bytes := [0x0D, 0x0A]

structure Part where
  /-- The header lines in front of the disposition. -/
  before : List Bytes := []
  name : Bytes
  filename : Option Bytes := none
  /-- The header lines behind it. -/
  after : List Bytes := []
  data : Bytes

def Part.disposition (p : Part) : Bytes :=
  octets "Content-Disposition: form-data; name=\"" ++ p.name ++ octets "\"" ++
    match p.filename with
    | none => []
    | some filename => octets "; filename=\"" ++ filename ++ octets "\""

def Part.lines (p : Part) : List Bytes := p.before ++ p.disposition :: p.after

/-- The header lines, with a line end between two of them. -/
def Part.headers (p : Part) : Bytes := CRLF.intercalate p.lines

/-- What stands in the body for the part: the headers, a blank line and the bytes. -/
def Part.block (p : Part) : Bytes := p.headers ++ (CRLF ++ CRLF ++ p.data)

/-- Octets with no line end in them. -/
def Plain (s : Bytes) : Prop := 0x0D ∉ s ∧ 0x0A ∉ s

instance : DecidablePred Plain := fun _ => inferInstanceAs (Decidable (_ ∧ _))

def delim (boundary : Bytes) : Bytes := octets "--" ++ boundary

/-- A form of one part or more. A boundary is in no part, and a line is one line. -/
structure Form where
  boundary : Bytes
  first : Part
  rest : List Part
  boundary_plain : Plain boundary
  line_plain : ∀ p ∈ first :: rest, ∀ line ∈ p.lines, line ≠ [] ∧ Plain line
  filename_plain : ∀ p ∈ first :: rest, ∀ filename ∈ p.filename, 0x22 ∉ filename
  no_delim : ∀ p ∈ first :: rest, ¬ CRLF ++ delim boundary <:+: p.block

/-- `multipart/form-data`: each part behind a delimiter, and the closing one. -/
def Form.body (form : Form) : Bytes :=
  (form.first :: form.rest).flatMap
      (fun p => delim form.boundary ++ (CRLF ++ (p.block ++ CRLF))) ++
    (delim form.boundary ++ octets "--" ++ CRLF)

/-- The name and the bytes of the first part with a file name. -/
def Form.file (form : Form) : Option (Bytes × Bytes) :=
  (form.first :: form.rest).findSome? fun p => p.filename.map fun filename => (filename, p.data)

/-! ## The first occurrence -/

/-- `cut` splits at an occurrence with none before it. -/
theorem cut_first {pattern before after : Bytes} (hne : pattern ≠ [])
    (hfirst : ∀ b a, before ++ (pattern ++ after) = b ++ (pattern ++ a) →
      before.length ≤ b.length) :
    cut pattern (before ++ (pattern ++ after)) = some (before, after) := by
  induction before with
  | nil =>
    obtain ⟨c, cs, rfl⟩ := List.exists_cons_of_ne_nil hne
    have hprefix : (c :: cs).isPrefixOf (c :: (cs ++ after)) :=
      List.isPrefixOf_iff_prefix.2 ⟨after, by simp⟩
    rw [List.nil_append, List.cons_append, cut, if_pos hprefix]
    simp
  | cons c before ih =>
    have hnot : ¬ pattern.isPrefixOf (c :: (before ++ (pattern ++ after))) := by
      intro hprefix
      obtain ⟨a, ha⟩ := List.isPrefixOf_iff_prefix.1 hprefix
      simpa using hfirst [] a (by simpa using ha.symm)
    have hrest := ih fun b a hba => by
      simpa using hfirst (c :: b) a (by simp [hba])
    rw [List.cons_append, cut, if_neg hnot, hrest]
    simp

theorem cut_prefix {pattern : Bytes} (hne : pattern ≠ []) (after : Bytes) :
    cut pattern (pattern ++ after) = some ([], after) := by
  have h := @cut_first pattern [] after hne fun b a _ => by simp
  simpa using h

/-- And where it splits, there is none before. -/
theorem cut_some {pattern s before after : Bytes} (h : cut pattern s = some (before, after)) :
    s = before ++ (pattern ++ after) ∧
      ∀ b a, s = b ++ (pattern ++ a) → before.length ≤ b.length := by
  induction s generalizing before with
  | nil =>
    rw [cut] at h
    split at h
    · rename_i hempty
      simp only [Option.some.injEq, Prod.mk.injEq] at h
      simp [← h.1, ← h.2, hempty]
    · cases h
  | cons c s ih =>
    rw [cut] at h
    split at h
    · rename_i hprefix
      obtain ⟨a, ha⟩ := List.isPrefixOf_iff_prefix.1 hprefix
      simp only [Option.some.injEq, Prod.mk.injEq] at h
      obtain ⟨rfl, rfl⟩ := h
      rw [← ha]
      simp
    · rename_i hprefix
      obtain ⟨⟨b', a'⟩, hcut, heq⟩ := Option.map_eq_some_iff.1 h
      simp only [Prod.mk.injEq] at heq
      obtain ⟨rfl, rfl⟩ := heq
      obtain ⟨hs, hfirst⟩ := ih hcut
      refine ⟨by rw [hs]; simp, fun b a hba => ?_⟩
      cases b with
      | nil =>
        exact absurd (List.isPrefixOf_iff_prefix.2 ⟨a, hba.symm⟩) hprefix
      | cons d b =>
        simp only [List.cons_append, List.cons.injEq] at hba
        have := hfirst b a hba.2
        simp
        omega

/-- Octets without the first one of the pattern are passed over. -/
theorem cut_skip {c : UInt8} {pattern s t : Bytes} (h : c ∉ s) :
    cut (c :: pattern) (s ++ t) =
      (cut (c :: pattern) t).map fun r => (s ++ r.1, r.2) := by
  induction s with
  | nil => simp
  | cons d s ih =>
    have hne : c ≠ d := fun heq => h (by simp [heq])
    have hnot : ¬ (c :: pattern).isPrefixOf (d :: (s ++ t)) := by
      simp [hne]
    rw [List.cons_append, cut, if_neg hnot, ih fun hs => h (List.mem_cons_of_mem _ hs),
      Option.map_map]
    rfl

/-! ## What the parser reads -/

/-- The headers end at the first blank line. -/
theorem cut_headers {lines : List Bytes} (hne : lines ≠ [])
    (hlines : ∀ line ∈ lines, line ≠ [] ∧ Plain line) (rest : Bytes) :
    cut (octets "\r\n\r\n") (CRLF.intercalate lines ++ (CRLF ++ CRLF ++ rest)) =
      some (CRLF.intercalate lines, rest) := by
  have hpattern : octets "\r\n\r\n" = [0x0D, 0x0A, 0x0D, 0x0A] := by decide
  rw [hpattern]
  induction lines with
  | nil => exact absurd rfl hne
  | cons line lines ih =>
    have hskip : (0x0D : UInt8) ∉ line := (hlines line List.mem_cons_self).2.1
    cases lines with
    | nil =>
      rw [List.intercalate_singleton, cut_skip hskip]
      simp [CRLF, cut]
    | cons line' lines =>
      have hrest := ih (by simp) fun l hl => hlines l (List.mem_cons_of_mem _ hl)
      obtain ⟨hne', hplain'⟩ := hlines line' (by simp)
      obtain ⟨d, ds, rfl⟩ := List.exists_cons_of_ne_nil hne'
      have hd : (0x0D : UInt8) ≠ d := fun heq => hplain'.1 (by simp [heq])
      obtain ⟨more, hmore⟩ : ∃ more,
          CRLF.intercalate ((d :: ds) :: lines) ++ (CRLF ++ CRLF ++ rest) = d :: more := by
        cases lines <;> simp [List.intercalate_cons_cons]
      rw [List.intercalate_cons_cons, List.append_assoc, List.append_assoc, cut_skip hskip, hmore]
      rw [hmore] at hrest
      have hcrlf : CRLF ++ d :: more = 0x0D :: 0x0A :: d :: more := by simp [CRLF]
      have hcr : ¬ [0x0D, 0x0A, 0x0D, 0x0A].isPrefixOf (0x0D :: 0x0A :: d :: more) := by simp [hd]
      have hlf : ¬ [0x0D, 0x0A, 0x0D, 0x0A].isPrefixOf (0x0A :: d :: more) := by simp
      rw [hcrlf, cut, if_neg hcr, cut, if_neg hlf, hrest]
      simp [CRLF]

/-- The bytes end at the first delimiter: it begins with the only CR in it, so none overlaps
with the one behind them. -/
theorem cut_data {boundary data : Bytes} (hplain : Plain boundary)
    (hfree : ¬ CRLF ++ delim boundary <:+: data) (rest : Bytes) :
    cut (octets "\r\n" ++ delim boundary) (data ++ (CRLF ++ delim boundary ++ rest)) =
      some (data, rest) := by
  have hpattern : octets "\r\n" = CRLF := by decide
  rw [hpattern]
  have hcr : (0x0D : UInt8) ∉ 0x0A :: delim boundary := by
    have hdashes : (0x0D : UInt8) ∉ octets "--" := by decide
    simp [delim, hdashes, hplain.1]
  have hcrlf : CRLF ++ delim boundary = 0x0D :: (0x0A :: delim boundary) := by simp [CRLF]
  rw [hcrlf] at hfree ⊢
  refine cut_first (by simp) fun b a hba => ?_
  by_contra hlt
  rw [not_le] at hlt
  rcases List.append_eq_append_iff.1 hba with ⟨e, rfl, -⟩ | ⟨e, rfl, he⟩
  · simp at hlt
  have hne : e ≠ [] := by
    rintro rfl
    simp at hlt
  rcases List.append_eq_append_iff.1 he with ⟨f, rfl, -⟩ | ⟨f, hf, hrest⟩
  · exact hfree ⟨b, f, by simp⟩
  · cases f with
    | nil => exact hfree ⟨b, [], by simp [hf]⟩
    | cons c f =>
      obtain ⟨c', e, rfl⟩ := List.exists_cons_of_ne_nil hne
      simp only [List.cons_append, List.cons.injEq] at hf hrest
      refine hcr ?_
      rw [hf.2, hrest.1]
      simp

theorem Part.lines_ne (p : Part) : p.lines ≠ [] := by
  simp [Part.lines]

/-- The parser reads the first part: the name that its headers give, and its bytes. -/
theorem parse_form (form : Form) :
    parse_multipart form.body form.boundary =
      some (filename_of form.first.headers, form.first.data) := by
  obtain ⟨tail, htail⟩ : ∃ tail, form.body = delim form.boundary ++ (CRLF ++
      (form.first.headers ++ (CRLF ++ CRLF ++
        (form.first.data ++ (CRLF ++ delim form.boundary ++ tail))))) := by
    cases hrest : form.rest with
    | nil => exact ⟨octets "--" ++ CRLF, by simp [Form.body, hrest, Part.block]⟩
    | cons p ps =>
      refine ⟨CRLF ++ (p.block ++ CRLF) ++ (ps.flatMap (fun p =>
        delim form.boundary ++ (CRLF ++ (p.block ++ CRLF))) ++
          (delim form.boundary ++ octets "--" ++ CRLF)), ?_⟩
      simp [Form.body, hrest, Part.block]
  have hfirst := form.line_plain form.first List.mem_cons_self
  have hfree : ¬ CRLF ++ delim form.boundary <:+: form.first.data := by
    intro h
    refine form.no_delim form.first List.mem_cons_self (h.trans ?_)
    exact ⟨form.first.headers ++ (CRLF ++ CRLF), [], by simp [Part.block]⟩
  have hdelim : cut (delim form.boundary) form.body = some ([], CRLF ++
      (form.first.headers ++ (CRLF ++ CRLF ++
        (form.first.data ++ (CRLF ++ delim form.boundary ++ tail))))) := by
    rw [htail]
    exact cut_prefix (by simp [delim, octets]) _
  have hskip : ∀ s : Bytes, skip 0x0A (skip 0x0D (CRLF ++ s)) = s := by
    intro s
    simp [CRLF, skip]
  have hheaders := cut_headers form.first.lines_ne hfirst
    (form.first.data ++ (CRLF ++ delim form.boundary ++ tail))
  have hdata : cut (octets "\r\n" ++ (octets "--" ++ form.boundary))
      (form.first.data ++ (CRLF ++ delim form.boundary ++ tail)) = some (form.first.data, tail) :=
    cut_data form.boundary_plain hfree tail
  unfold parse_multipart
  change (cut (delim form.boundary) form.body).bind _ = _
  rw [hdelim, Option.bind_some]
  dsimp only
  rw [hskip, Part.headers, hheaders, Option.map_some]
  dsimp only
  rw [hdata]

/-! ## The name in the headers -/

/-- `filename="` in any case of letters. -/
def Key (s : Bytes) : Prop := s.map tolower = octets "filename=\""

/-- A first `filename="`: none before it. -/
structure FirstKey (headers before key after : Bytes) : Prop where
  text : headers = before ++ (key ++ after)
  is_key : Key key
  first : ∀ before' key' after', headers = before' ++ (key' ++ after') → Key key' →
    before.length ≤ before'.length

/-- The first `filename="` of the headers has this name behind it and a quote, or the name is
empty and none has a quote behind it. -/
def Named (headers filename : Bytes) : Prop :=
  (∃ before key after, FirstKey headers before key (filename ++ 0x22 :: after)) ∨
  filename = [] ∧ ∀ before key after, headers = before ++ (key ++ after) → Key key → 0x22 ∉ after

theorem key_length {key : Bytes} (h : Key key) : key.length = 10 := by
  have hlength := congrArg List.length h
  rw [List.length_map] at hlength
  rw [hlength]
  decide

/-- A key in the headers is one in the headers in lower case. -/
theorem key_in_lower {headers before key after : Bytes}
    (h : headers = before ++ (key ++ after)) (hkey : Key key) :
    headers.map tolower =
      before.map tolower ++ (octets "filename=\"" ++ after.map tolower) := by
  rw [h, List.map_append, List.map_append, hkey]

theorem lower_in_key {headers before after : Bytes}
    (h : headers.map tolower = before ++ (octets "filename=\"" ++ after)) :
    ∃ b key a, headers = b ++ (key ++ a) ∧ Key key ∧ b.length = before.length := by
  obtain ⟨b, rest, rfl, rfl, hrest⟩ := List.map_eq_append_iff.1 h
  obtain ⟨key, a, rfl, hkey, -⟩ := List.map_eq_append_iff.1 hrest
  exact ⟨b, key, a, rfl, hkey, by rw [List.length_map]⟩

/-- Headers with no key, or with a first one. -/
theorem no_key_or_first (headers : Bytes) :
    (filename_of headers = [] ∧ ∀ before key after, headers = before ++ (key ++ after) →
      ¬ Key key) ∨
    ∃ before key after, FirstKey headers before key after ∧
      filename_of headers =
        match cut (octets "\"") after with
        | none => []
        | some (filename, _) => filename := by
  unfold filename_of
  cases hcut : cut (octets "filename=\"") (headers.map tolower) with
  | none =>
    refine .inl ⟨rfl, fun before key after h hkey => ?_⟩
    have hinfix : octets "filename=\"" <:+: headers.map tolower :=
      ⟨before.map tolower, after.map tolower, by simp [key_in_lower h hkey]⟩
    have hsome := (uploaded_files.cut_isSome _ _).2 hinfix
    rw [hcut] at hsome
    cases hsome
  | some r =>
    obtain ⟨before', after'⟩ := r
    obtain ⟨htext, hfirst⟩ := cut_some hcut
    obtain ⟨before, key, after, h, hkey, hlength⟩ := lower_in_key htext
    have hdrop : headers.drop (before'.length + 10) = after := by
      rw [h, ← hlength, ← key_length hkey, ← List.length_append, ← List.append_assoc,
        List.drop_left]
    refine .inr ⟨before, key, after, ⟨h, hkey, fun b k a hb hk => ?_⟩, ?_⟩
    · have := hfirst _ _ (key_in_lower hb hk)
      rw [List.length_map] at this
      omega
    · cases hquote : cut (octets "\"") after <;> simp [hdrop, hquote]

/-- Two first keys are one. -/
theorem FirstKey.unique {headers before key after before' key' after' : Bytes}
    (h : FirstKey headers before key after) (h' : FirstKey headers before' key' after') :
    before = before' ∧ key = key' ∧ after = after' := by
  have hlength : before.length = before'.length :=
    Nat.le_antisymm (h.first _ _ _ h'.text h'.is_key) (h'.first _ _ _ h.text h.is_key)
  have hkeys : key.length = key'.length := (key_length h.is_key).trans (key_length h'.is_key).symm
  obtain ⟨hbefore, hrest⟩ := List.append_inj (h.text.symm.trans h'.text) hlength
  exact ⟨hbefore, List.append_inj hrest hkeys⟩

theorem quote_octets : octets "\"" = [0x22] := by decide

/-- The name up to the next quote. -/
theorem cut_quote {filename : Bytes} (h : 0x22 ∉ filename) (after : Bytes) :
    cut (octets "\"") (filename ++ 0x22 :: after) = some (filename, after) := by
  rw [quote_octets, cut_skip h]
  simp [cut]

/-- The keys of the headers are behind the first one, and so is what follows them. -/
theorem FirstKey.mem_after {headers before key after b k a : Bytes}
    (h : FirstKey headers before key after) (htext : headers = b ++ (k ++ a)) (hkey : Key k)
    {c : UInt8} (hc : c ∈ a) : c ∈ after := by
  have hlength : ∀ {x y z : Bytes}, headers = x ++ (y ++ z) → Key y →
      headers.drop (x.length + 10) = z := by
    intro x y z hx hy
    rw [hx, ← key_length hy, ← List.length_append, ← List.append_assoc, List.drop_left]
  have hle := h.first b k a htext hkey
  have hsplit : b.length + 10 = before.length + 10 + (b.length - before.length) := by omega
  rw [← hlength htext hkey, hsplit, ← List.drop_drop, hlength h.text h.is_key] at hc
  exact List.mem_of_mem_drop hc

theorem filename_of_iff {headers filename : Bytes} (hplain : 0x22 ∉ filename) :
    filename_of headers = filename ↔ Named headers filename := by
  rcases no_key_or_first headers with ⟨hname, hnone⟩ | ⟨before, key, after, hkey, hname⟩
  · rw [hname]
    constructor
    · rintro rfl
      exact .inr ⟨rfl, fun b k a h hk => absurd hk (hnone b k a h)⟩
    · rintro (⟨b, k, a, h⟩ | ⟨rfl, -⟩)
      · exact absurd h.is_key (hnone b k _ h.text)
      · rfl
  · rw [hname]
    have hquote : (cut (octets "\"") after).isSome ↔ 0x22 ∈ after := by
      rw [uploaded_files.cut_isSome, quote_octets, uploaded_files.singleton_infix]
    cases hcut : cut (octets "\"") after with
    | none =>
      rw [hcut] at hquote
      have hno : 0x22 ∉ after := fun h => by simpa using hquote.2 h
      constructor
      · rintro rfl
        exact .inr ⟨rfl, fun b k a h hk hmem => hno (hkey.mem_after h hk hmem)⟩
      · rintro (⟨b, k, a, h⟩ | ⟨rfl, -⟩)
        · exact absurd (by simp) ((h.unique hkey).2.2 ▸ hno)
        · rfl
    | some r =>
      obtain ⟨name, rest⟩ := r
      obtain ⟨hafter, -⟩ := cut_some hcut
      rw [quote_octets] at hafter
      constructor
      · rintro rfl
        exact .inl ⟨before, key, rest, hafter ▸ hkey⟩
      · rintro (⟨b, k, a, h⟩ | ⟨-, hno⟩)
        · rw [← (h.unique hkey).2.2, cut_quote hplain] at hcut
          simp_all
        · exact absurd (by simp [hafter]) (hno before key after hkey.text hkey.is_key)

theorem file_plain {form : Form} {filename data : Bytes} (h : form.file = some (filename, data)) :
    0x22 ∉ filename := by
  obtain ⟨p, hp, hfile⟩ := List.exists_of_findSome?_eq_some h
  obtain ⟨name, hname, heq⟩ := Option.map_eq_some_iff.1 hfile
  simp only [Prod.mk.injEq] at heq
  exact heq.1 ▸ form.filename_plain p hp name hname

/-- The parser recovers the first file of a form exactly if the first part has its bytes (it is
the first part, or its bytes are the same) and the name is the first one in its headers. -/
theorem file_recovered_iff (form : Form) (filename data : Bytes)
    (hfile : form.file = some (filename, data)) :
    parse_multipart form.body form.boundary = some (filename, data) ↔
      form.first.data = data ∧ Named form.first.headers filename := by
  rw [parse_form, ← filename_of_iff (file_plain hfile)]
  simp [and_comm]

/-- A boundary with an octet that is not in the part. -/
theorem no_delim_of_not_mem {boundary : Bytes} {p : Part} {c : UInt8} (hc : c ∈ boundary)
    (hp : c ∉ p.block) : ¬ CRLF ++ delim boundary <:+: p.block :=
  fun h => hp (h.subset (by simp [delim, hc]))

def caption : Part := { name := octets "caption", data := octets "hi" }

def attachment : Part :=
  { name := octets "file", filename := some (octets "a.txt"), data := [0xFF, 0x00] }

/-- A field in front of a file. -/
def captioned : Form where
  boundary := [0x58]
  first := caption
  rest := [attachment]
  boundary_plain := by decide
  line_plain := by
    have hfirst : ∀ line ∈ caption.lines, line ≠ [] ∧ Plain line := by decide
    have hsecond : ∀ line ∈ attachment.lines, line ≠ [] ∧ Plain line := by decide
    simpa using ⟨hfirst, hsecond⟩
  filename_plain := by decide
  no_delim := by
    intro p hp
    have hX : (0x58 : UInt8) ∉ p.block := by
      rcases List.mem_cons.1 hp with rfl | hp
      · decide
      · rw [List.mem_singleton.1 hp]
        decide
    exact no_delim_of_not_mem (List.mem_singleton_self _) hX

theorem the_captioned_file_is_recovered_iff :
    parse_multipart captioned.body captioned.boundary = some (octets "a.txt", [0xFF, 0x00]) ↔
      captioned.first.data = [0xFF, 0x00] ∧ Named captioned.first.headers (octets "a.txt") :=
  file_recovered_iff captioned (octets "a.txt") [0xFF, 0x00] (by decide)

/-- The field is read for the file. -/
theorem the_caption_is_uploaded :
    captioned.file = some (octets "a.txt", [0xFF, 0x00]) ∧
      parse_multipart captioned.body captioned.boundary = some ([], octets "hi") := by
  have hname : filename_of captioned.first.headers = [] := by decide
  refine ⟨by decide, ?_⟩
  rw [parse_form, hname]
  simp [captioned, caption]

end loomic.multipart
