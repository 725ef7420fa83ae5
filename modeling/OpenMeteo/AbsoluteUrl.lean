/-
Absolute URLs.

`is_absolute_url` looks at the first "://" alone. The scheme of an absolute URL
has no ':', so where there is a scheme that first one ends it; the other way
round the first one gives the scheme. The URL that is requested without a key
is the joined URL, so the test decides whether the base is put in front.
-/
import OpenMeteo.HttpUrl

set_option autoImplicit false

namespace OpenMeteo

open StringView

/-! ## The grammar -/

/-- An ASCII letter. -/
def SchemeStart (c : UInt8) : Prop := (65 ≤ c ∧ c ≤ 90) ∨ (97 ≤ c ∧ c ≤ 122)

/-- An ASCII letter, a digit, '+', '-' or '.'. -/
def SchemeChar (c : UInt8) : Prop :=
  SchemeStart c ∨ (48 ≤ c ∧ c ≤ 57) ∨ c = 43 ∨ c = 45 ∨ c = 46

instance : DecidablePred SchemeStart := fun c => by unfold SchemeStart; infer_instance

instance : DecidablePred SchemeChar := fun c => by unfold SchemeChar; infer_instance

/-- A scheme. -/
structure Scheme where
  first : UInt8
  more : Bytes
  start : SchemeStart first
  chars : ∀ c ∈ more, SchemeChar c

def Scheme.text (scheme : Scheme) : Bytes := scheme.first :: scheme.more

/-- `scheme ++ "://" ++ rest`. -/
def AbsoluteUrl (path : Bytes) : Prop :=
  ∃ (scheme : Scheme) (rest : Bytes), path = scheme.text ++ OpenMeteo.text "://" ++ rest

theorem Scheme.char (scheme : Scheme) : ∀ c ∈ scheme.text, SchemeChar c := by
  intro c hc
  rcases List.mem_cons.mp hc with rfl | hmore
  · exact Or.inl scheme.start
  · exact scheme.chars c hmore

theorem Scheme.no_colon (scheme : Scheme) : 58 ∉ scheme.text := by
  intro hc
  exact absurd (scheme.char 58 hc) (by decide)

/-- The characters the source lists, by their codes. -/
theorem scheme_chars_codes : scheme_chars.map UInt8.toNat
    = List.range' 97 26 ++ List.range' 65 26 ++ List.range' 48 10 ++ [43, 46, 45] := by
  decide

/-- The characters the source lists are those of a scheme. -/
theorem mem_scheme_chars (c : UInt8) : c ∈ scheme_chars ↔ SchemeChar c := by
  have hcodes : c ∈ scheme_chars ↔ c.toNat ∈ scheme_chars.map UInt8.toNat := by
    refine ⟨List.mem_map_of_mem, fun h => ?_⟩
    obtain ⟨d, hd, heq⟩ := List.mem_map.mp h
    rwa [← UInt8.toNat_inj.mp heq]
  rw [hcodes, scheme_chars_codes]
  simp only [List.mem_append, List.mem_range'_1, List.mem_cons, List.not_mem_nil, or_false,
    SchemeChar, SchemeStart, UInt8.le_iff_toNat_le, ← UInt8.toNat_inj, Nat.reduceAdd,
    UInt8.reduceToNat]
  omega

/-! ## The test -/

/-- **The test accepts exactly the grammar.** -/
theorem is_absolute_url_iff (path : Bytes) : is_absolute_url path = true ↔ AbsoluteUrl path := by
  unfold is_absolute_url
  constructor
  · intro h
    split at h
    · cases h
    · next stop hfind =>
      obtain ⟨rest, hpath⟩ := find_text_eq_some hfind
      split at h
      · cases h
      · next hstop =>
        dsimp only at h
        split at h
        · cases h
        · next hfirst =>
          -- what is in front of the first "://" starts with a letter, so it is not empty
          have hchars : ∀ c ∈ path.take stop, SchemeChar c := by
            intro c hc
            rw [Option.isNone_iff_eq_none, substr, List.drop_zero,
              find_first_not_of_eq_none] at h
            exact (mem_scheme_chars c).mp (h c hc)
          obtain ⟨stop, rfl⟩ : ∃ n, stop = n + 1 := ⟨stop - 1, by omega⟩
          cases path with
          | nil => cases hfind
          | cons c more =>
            rw [List.take_succ_cons] at hchars hpath
            refine ⟨⟨c, more.take stop, ?_, fun d hd => hchars d (List.mem_cons_of_mem _ hd)⟩,
              rest, hpath⟩
            exact (not_not.mp hfirst).symm
  · rintro ⟨scheme, rest, rfl⟩
    have hfind : find_text (scheme.text ++ text "://" ++ rest) (text "://")
        = some scheme.text.length := find_text_append scheme.no_colon _ rest
    have hscheme : substr (scheme.text ++ text "://" ++ rest) 0 scheme.text.length
        = scheme.text := by
      rw [substr, List.drop_zero, List.append_assoc, List.take_left]
    have hchars : find_first_not_of scheme.text scheme_chars = none :=
      find_first_not_of_eq_none.mpr fun c hc => (mem_scheme_chars c).mpr (scheme.char c hc)
    have hfirst : (scheme.text ++ text "://" ++ rest).headD 0 = scheme.first := rfl
    rw [hfind]
    dsimp only
    rw [hfirst, if_neg (by simp [Scheme.text]), if_neg (not_not.mpr scheme.start.symm), hscheme,
      hchars]
    rfl

/-- A byte that no scheme has, in front of the first "://", makes a path relative. -/
theorem not_absoluteUrl {before rest : Bytes} {c : UInt8}
    (hfirst : ∀ i < before.length, ¬ text "://" <+: (before ++ text "://" ++ rest).drop i)
    (hmem : c ∈ before) (hc : ¬ SchemeChar c) : ¬ AbsoluteUrl (before ++ text "://" ++ rest) := by
  rintro ⟨scheme, behind, hpath⟩
  rcases Nat.lt_or_ge scheme.text.length before.length with hshort | hlong
  · -- the end of the scheme would be an earlier one
    refine hfirst _ hshort ⟨behind, ?_⟩
    rw [hpath, List.append_assoc, List.drop_left]
  · have hfront : before <+: scheme.text :=
      List.prefix_of_prefix_length_le ⟨text "://" ++ rest, (List.append_assoc ..).symm⟩
        (hpath ▸ ⟨text "://" ++ behind, (List.append_assoc ..).symm⟩) hlong
    exact hc (scheme.char c (hfront.subset hmem))

/-! ## What is requested -/

/-- Without a key the URL is the joined URL. -/
theorem keyed_url_without_key {config : HttpClientConfig} (curl : Curl) (path : Bytes)
    (hkey : config.api_key = []) : config.keyed_url curl path = .ok (config.join_url path) := by
  rw [HttpClientConfig.keyed_url, hkey]
  rfl

/-- **Absolute-URL detection accepts exactly its grammar**, and without a key
`get` requests an absolute URL as it is and puts the base in front of any other
path: also of one with a '/', '?', '#', ':' or '%' in front of its first "://".
A libcurl that refuses nothing is sent every such request that passes the checks,
and what is sent is the transfer `get` returns. -/
theorem absolute_url_requested (curl : Curl) (client : HttpClient) (config : HttpClientConfig)
    (himpl : client.impl_ = some config) (hkey : config.api_key = []) (path : Bytes) :
    (is_absolute_url path = true ↔ AbsoluteUrl path)
    ∧ (∀ options, client.sent curl path = some (config, options) →
        (AbsoluteUrl path → options.head? = some (.URL path))
          ∧ (¬ AbsoluteUrl path → options.head? = some (.URL (config.base_url ++ path))))
    ∧ (∀ before rest c, path = before ++ text "://" ++ rest →
        (∀ i < before.length, ¬ text "://" <+: path.drop i) → c ∈ before →
        c ∈ text "/?#:%" → ¬ AbsoluteUrl path)
    ∧ (curl.Works → 0 ≤ config.timeout → 0 ∉ config.join_url path →
        (¬ ∃ c ∈ config.user_agent, c = 13 ∨ c = 10 ∨ c = 0) →
        ∃ options, client.sent curl path = some (config, options))
    ∧ ∀ options, client.sent curl path = some (config, options) →
        client.get curl path = finish curl (curl.easy_perform options)
          (deliver config.sink (curl.easy_perform options).callbacks) := by
  have hiff := is_absolute_url_iff path
  refine ⟨hiff, fun options hsent => ?_, ?_, fun hworks htimeout hnul hagent => ?_,
    fun options hsent => (sent_spec hsent).2.2⟩
  · obtain ⟨-, hrequest, -⟩ := sent_spec hsent
    obtain ⟨url, hurl, rfl, hnul, -⟩ := request_ok hrequest
    rw [keyed_url_without_key curl path hkey] at hurl
    cases hurl
    -- libcurl reads the URL as a C string, which loses nothing of it
    rw [HttpClientConfig.options, c_str, until_terminator_of_not_mem hnul,
      HttpClientConfig.join_url]
    refine ⟨fun habsolute => ?_, fun hrelative => ?_⟩
    · rw [if_pos (hiff.mpr habsolute)]
      rfl
    · rw [if_neg (mt hiff.mp hrelative)]
      rfl
  · rintro before rest c rfl hfirst hmem hc
    refine not_absoluteUrl hfirst hmem ?_
    have htext : text "/?#:%" = [47, 63, 35, 58, 37] := rfl
    rw [htext] at hc
    simp only [List.mem_cons, List.not_mem_nil, or_false] at hc
    rcases hc with rfl | rfl | rfl | rfl | rfl <;> decide
  · have hclean : ¬ ∃ c ∈ config.api_key, c = 13 ∨ c = 10 ∨ c = 0 := by
      rw [hkey]
      rintro ⟨c, hc, -⟩
      cases hc
    have hrequest := request_of_keyed_url hworks (keyed_url_without_key curl path hkey) htimeout
      hnul hclean hagent
    exact ⟨config.options (config.join_url path), sent_of_request himpl hworks.handle hrequest⟩

/-- A relative path whose query holds a URL. -/
theorem absolute_url_requested_in_query :
    ¬ AbsoluteUrl (text "/weather?reference=https://example.com")
      ∧ ∃ options, HttpClient.sent ⟨some { base_url := text "http://h" }⟩ (Curl.recorded [])
          (text "/weather?reference=https://example.com")
            = some ({ base_url := text "http://h" }, options)
        ∧ options.head?
          = some (.URL (text "http://h/weather?reference=https://example.com")) := by
  let config : HttpClientConfig := { base_url := text "http://h" }
  obtain ⟨hiff, hurl, -⟩ := absolute_url_requested (Curl.recorded []) ⟨some config⟩ config rfl rfl
    (text "/weather?reference=https://example.com")
  have hrelative : ¬ AbsoluteUrl (text "/weather?reference=https://example.com") :=
    fun h => absurd (hiff.mpr h) (by decide)
  exact ⟨hrelative, _, rfl, (hurl _ rfl).2 hrelative⟩

end OpenMeteo
