/-
No truncated, reordered or oversized body is a success.

The invariant is `Bounded`: under a limit the buffered body fits it. It is what
makes the guard `bytes > limit - body.size()` a comparison of natural numbers,
and `write_callback_cases` says once, in natural numbers, what a call of the
callback does. A success is excluded on each of the abort paths because libcurl
fails a transfer when a callback returns less than it was given; only the path
where the limit is exceeded leaves a mark of its own.
-/
import OpenMeteo.Http
import OpenMeteo.Lib.UrlText
import Mathlib.Tactic.NormNum

set_option autoImplicit false

namespace OpenMeteo

/-! ## Sizes -/

/-- `size * count` fits `std::size_t`. -/
def Chunk.Representable (chunk : Chunk) : Prop := chunk.size.toNat * chunk.count.toNat < 2 ^ 64

theorem size_max_toNat : size_max.toNat = 2 ^ 64 - 1 := rfl

/-- The guard of both callbacks is exactly that the product does not fit. -/
theorem product_guard (chunk : Chunk) :
    (chunk.size ≠ 0 ∧ chunk.count > size_max / chunk.size) ↔ ¬ chunk.Representable := by
  rw [Chunk.Representable, gt_iff_lt, UInt64.lt_iff_toNat_lt, UInt64.toNat_div, size_max_toNat,
    ne_eq, ← UInt64.toNat_inj]
  change ¬ chunk.size.toNat = 0 ∧ _ ↔ _
  rcases Nat.eq_zero_or_pos chunk.size.toNat with hzero | hpos
  · rw [hzero, Nat.zero_mul]
    simp
  · rw [Nat.div_lt_iff_lt_mul hpos, Nat.mul_comm chunk.count.toNat]
    omega

/-- Behind the guard the product does not wrap, and it is the length of the data. -/
theorem bytes_toNat {chunk : Chunk} (h : chunk.Representable) :
    (chunk.size * chunk.count).toNat = chunk.data.length := by
  rw [UInt64.toNat_mul, Nat.mod_eq_of_lt h, chunk.holds]

theorem take_bytes {chunk : Chunk} (h : chunk.Representable) :
    chunk.data.take (chunk.size * chunk.count).toNat = chunk.data := by
  rw [bytes_toNat h, List.take_length]

/-! ## The invariant -/

/-- Under a limit, the buffered body fits it. -/
def ResponseSink.Bounded (sink : ResponseSink) : Prop :=
  0 < sink.limit → sink.response.body.length ≤ sink.limit.toNat

/-- Under a limit `body.size()` is exact. -/
theorem body_size_toNat {sink : ResponseSink} (h : sink.Bounded) (hlimit : 0 < sink.limit) :
    sink.body_size.toNat = sink.response.body.length := by
  have hlen := h hlimit
  have hlt := sink.limit.toNat_lt
  exact UInt64.toNat_ofNat_of_lt' (by change _ < 2 ^ 64; omega)

/-- **The subtraction does not underflow.** -/
theorem room_toNat {sink : ResponseSink} (h : sink.Bounded) (hlimit : 0 < sink.limit) :
    sink.body_size ≤ sink.limit
      ∧ (sink.limit - sink.body_size).toNat + sink.response.body.length = sink.limit.toNat := by
  have hsize := body_size_toNat h hlimit
  have hle : sink.body_size ≤ sink.limit := by
    rw [UInt64.le_iff_toNat_le, hsize]
    exact h hlimit
  refine ⟨hle, ?_⟩
  rw [UInt64.toNat_sub_of_le _ _ hle, hsize]
  exact Nat.sub_add_cancel (h hlimit)

/-- A chunk that would push the buffered body over a limit. -/
def Chunk.Exceeds (chunk : Chunk) (sink : ResponseSink) : Prop :=
  0 < sink.limit ∧ sink.limit.toNat < sink.response.body.length + chunk.data.length

/-- Append the data of a chunk. -/
def ResponseSink.append (sink : ResponseSink) (data : Bytes) : ResponseSink :=
  { sink with response := { sink.response with body := sink.response.body ++ data } }

/-- **What one call of `write_callback` does**: the three abort paths, and the append. -/
theorem write_callback_cases {sink : ResponseSink} (h : sink.Bounded) (chunk : Chunk) :
    (¬ chunk.Representable ∧ write_callback sink chunk = (sink, 0))
      ∨ (chunk.Representable ∧ chunk.Exceeds sink
          ∧ write_callback sink chunk = ({ sink with overflowed := true }, 0))
      ∨ (chunk.Representable ∧ ¬ chunk.Exceeds sink ∧ write_callback sink chunk = (sink, 0))
      ∨ (chunk.Representable ∧ ¬ chunk.Exceeds sink
          ∧ write_callback sink chunk
              = (sink.append chunk.data, chunk.size * chunk.count)) := by
  by_cases hrep : chunk.Representable
  -- behind the guard, and with the invariant, the source's comparison is `Exceeds`
  · have hexceeds : (sink.limit > 0 ∧ chunk.size * chunk.count > sink.limit - sink.body_size)
        ↔ chunk.Exceeds sink := by
      refine and_congr_right fun hlimit => ?_
      have hroom := (room_toNat h hlimit).2
      rw [gt_iff_lt, UInt64.lt_iff_toNat_lt, bytes_toNat hrep]
      omega
    have hguard := mt (product_guard chunk).mp (not_not.mpr hrep)
    by_cases hover : chunk.Exceeds sink
    · refine Or.inr (Or.inl ⟨hrep, hover, ?_⟩)
      rw [write_callback, if_neg hguard]
      exact if_pos (hexceeds.mpr hover)
    · have hcall : write_callback sink chunk = if chunk.allocates then
          (sink.append chunk.data, chunk.size * chunk.count) else (sink, 0) := by
        rw [write_callback, if_neg hguard]
        simp only [if_neg (mt hexceeds.mp hover), take_bytes hrep]
        rfl
      by_cases halloc : chunk.allocates = true
      · exact Or.inr (Or.inr (Or.inr ⟨hrep, hover, hcall.trans (if_pos halloc)⟩))
      · exact Or.inr (Or.inr (Or.inl ⟨hrep, hover, hcall.trans (if_neg halloc)⟩))
  · refine Or.inl ⟨hrep, ?_⟩
    rw [write_callback, if_pos ((product_guard chunk).mpr hrep)]

/-- `header_callback` touches the headers alone. -/
theorem header_callback_frame (sink : ResponseSink) (chunk : Chunk) :
    (header_callback sink chunk).1.response.body = sink.response.body
      ∧ (header_callback sink chunk).1.limit = sink.limit
      ∧ (header_callback sink chunk).1.overflowed = sink.overflowed := by
  unfold header_callback
  split
  · exact ⟨rfl, rfl, rfl⟩
  · dsimp only
    split
    · exact ⟨rfl, rfl, rfl⟩
    · split <;> exact ⟨rfl, rfl, rfl⟩

/-! ## Whole transfers -/

/-- The bytes a callback adds to the body when it succeeds. -/
def Callback.body : Callback → Bytes
  | .write chunk => chunk.data
  | .header _ => []

/-- The callback returned what it was given. -/
def Callback.Complete (sink : ResponseSink) (callback : Callback) : Prop :=
  (callback.call sink).2.toNat = callback.chunk.size.toNat * callback.chunk.count.toNat

/-- Every callback of a sequence returned what it was given. -/
def AllComplete (sink : ResponseSink) : List Callback → Prop
  | [] => True
  | callback :: rest => callback.Complete sink ∧ AllComplete (callback.call sink).1 rest

/-- One callback: the limit stays, the invariant is kept, a mark stays, and a
complete one adds exactly its bytes. -/
theorem call_spec {sink : ResponseSink} (h : sink.Bounded) (callback : Callback) :
    (callback.call sink).1.limit = sink.limit
      ∧ (callback.call sink).1.Bounded
      ∧ (sink.overflowed = true → (callback.call sink).1.overflowed = true)
      ∧ (callback.Complete sink →
          (callback.call sink).1.response.body = sink.response.body ++ callback.body) := by
  cases callback with
  | header chunk =>
    obtain ⟨hbody, hlimit, hover⟩ := header_callback_frame sink chunk
    refine ⟨hlimit, ?_, fun hmark => hover.trans hmark,
      fun _ => hbody.trans (List.append_nil _).symm⟩
    -- the invariant reads nothing a header callback writes
    intro hpos
    rw [Callback.call, hlimit] at hpos
    rw [Callback.call, hbody, hlimit]
    exact h hpos
  | write chunk =>
    -- a complete call that added nothing had nothing to add
    have hnothing : chunk.size.toNat * chunk.count.toNat = 0 →
        sink.response.body = sink.response.body ++ chunk.data := by
      intro hzero
      rw [List.eq_nil_of_length_eq_zero (chunk.holds.trans hzero), List.append_nil]
    unfold Callback.Complete Callback.chunk Callback.body Callback.call
    dsimp only
    -- the product, the limit, the allocation, and the append
    rcases write_callback_cases h chunk with ⟨-, hcall⟩ | ⟨-, -, hcall⟩ | ⟨-, -, hcall⟩
        | ⟨-, hover, hcall⟩
    · rw [hcall]
      exact ⟨rfl, h, id, fun hcomplete => hnothing hcomplete.symm⟩
    · rw [hcall]
      exact ⟨rfl, h, fun _ => rfl, fun hcomplete => hnothing hcomplete.symm⟩
    · rw [hcall]
      exact ⟨rfl, h, id, fun hcomplete => hnothing hcomplete.symm⟩
    · rw [hcall]
      refine ⟨rfl, fun hlimit => ?_, id, fun _ => rfl⟩
      have hfits := not_and.mp hover hlimit
      simp only [ResponseSink.append, List.length_append]
      exact Nat.le_of_not_lt hfits

/-- **What a whole sequence of callbacks does**, by induction on it. -/
theorem deliver_spec (callbacks : List Callback) :
    ∀ {sink : ResponseSink}, sink.Bounded →
      (deliver sink callbacks).limit = sink.limit
        ∧ (deliver sink callbacks).Bounded
        ∧ (sink.overflowed = true → (deliver sink callbacks).overflowed = true)
        ∧ (AllComplete sink callbacks → (deliver sink callbacks).response.body
            = sink.response.body ++ callbacks.flatMap Callback.body) := by
  induction callbacks with
  | nil => exact fun h => ⟨rfl, h, id, fun _ => (List.append_nil _).symm⟩
  | cons callback rest ih =>
    intro sink h
    obtain ⟨hlimit, hbounded, hmark, hbody⟩ := call_spec h callback
    obtain ⟨ihlimit, ihbounded, ihmark, ihbody⟩ := ih hbounded
    refine ⟨ihlimit.trans hlimit, ihbounded, fun hm => ihmark (hmark hm), ?_⟩
    rintro ⟨hcomplete, hrest⟩
    rw [List.flatMap_cons, ← List.append_assoc, ← hbody hcomplete]
    exact ihbody hrest

theorem deliver_append (sink : ResponseSink) (before after : List Callback) :
    deliver sink (before ++ after) = deliver (deliver sink before) after :=
  List.foldl_append

theorem allComplete_append (before : List Callback) :
    ∀ (sink : ResponseSink) (after : List Callback), AllComplete sink (before ++ after) →
      AllComplete (deliver sink before) after := by
  induction before with
  | nil => exact fun sink after h => h
  | cons callback rest ih => exact fun sink after h => ih _ after h.2

/-- The sink `get` starts from is empty. -/
theorem sink_bounded (limit : UInt64) : ResponseSink.Bounded { limit := limit } :=
  fun _ => Nat.zero_le _

/-- After any sequence of callbacks the body is within the limit, and the
subtraction of its size does not underflow. -/
theorem deliver_within (callbacks : List Callback) {limit : UInt64} (hpos : 0 < limit) :
    let sink := deliver { limit := limit } callbacks
    sink.response.body.length ≤ limit.toNat
      ∧ sink.body_size ≤ sink.limit
      ∧ (sink.limit - sink.body_size).toNat + sink.response.body.length = limit.toNat := by
  obtain ⟨hlimit, hbounded, -, -⟩ := deliver_spec callbacks (sink_bounded limit)
  have hpos' : 0 < (deliver { limit := limit } callbacks).limit := by
    rw [hlimit]
    exact hpos
  have hfits := hbounded hpos'
  obtain ⟨hle, hroom⟩ := room_toNat hbounded hpos'
  rw [hlimit] at hfits hroom hle
  dsimp only
  rw [hlimit]
  exact ⟨hfits, hle, hroom⟩

/-- A chunk over the limit, wherever it comes, leaves its mark. -/
theorem deliver_overflowed {limit : UInt64} {before after : List Callback} {chunk : Chunk}
    (hrep : chunk.Representable) (hexceeds : chunk.Exceeds (deliver { limit := limit } before)) :
    (deliver { limit := limit } (before ++ .write chunk :: after)).overflowed = true := by
  have hbefore := (deliver_spec before (sink_bounded limit)).2.1
  -- the chunk sets the mark, and no callback behind it clears it
  have hmark : (write_callback (deliver { limit := limit } before) chunk).1.overflowed = true := by
    rcases write_callback_cases hbefore chunk with ⟨hno, -⟩ | ⟨-, -, hcall⟩ | ⟨-, hno, -⟩
        | ⟨-, hno, -⟩
    · exact absurd hrep hno
    · rw [hcall]
    · exact absurd hexceeds hno
    · exact absurd hexceeds hno
  have hcall := (call_spec hbefore (.write chunk)).2.1
  rw [deliver_append]
  exact (deliver_spec after hcall).2.2.1 hmark

/-- A chunk whose product does not fit is never complete. -/
theorem not_complete {sink : ResponseSink} {chunk : Chunk} (hrep : ¬ chunk.Representable) :
    ¬ (Callback.write chunk).Complete sink := by
  intro hcomplete
  -- what a callback returns is a `std::size_t`
  have hlt := ((Callback.write chunk).call sink).2.toNat_lt
  rw [Callback.Complete] at hcomplete
  rw [hcomplete] at hlt
  exact hrep hlt

/-! ## Results -/

/-- What is assumed of libcurl: a transfer in which a callback returned less
than it was given fails. -/
def Curl.AbortsOnShortReturn (curl : Curl) : Prop :=
  ∀ (config : HttpClientConfig) (url : Bytes),
    (curl.easy_perform (config.options url)).result = .CURLE_OK →
    AllComplete config.sink (curl.easy_perform (config.options url)).callbacks

/-- A response is returned from an unmarked sink after a transfer that succeeded. -/
theorem finish_ok {curl : Curl} {transfer : Transfer} {sink : ResponseSink}
    {response : HttpResponse} (h : finish curl transfer sink = .ok response) :
    sink.overflowed = false ∧ transfer.result = .CURLE_OK
      ∧ response.body = sink.response.body := by
  unfold finish at h
  split at h
  · cases h
  · next hmark =>
    split at h
    · cases h
    · split at h
      · cases h
      · next hok =>
        split at h
        · cases h
        · cases h
          exact ⟨by simpa using hmark, not_not.mp hok, rfl⟩

/-- A marked sink is an `InvalidRequest`, whatever libcurl reports. -/
theorem finish_overflowed {curl : Curl} {transfer : Transfer} {sink : ResponseSink}
    (h : sink.overflowed = true) :
    ∃ error, finish curl transfer sink = .error error ∧ error.code = .InvalidRequest := by
  rw [finish, if_pos h]
  exact ⟨_, rfl, rfl⟩

/-! ## A recorded transfer -/

/-- Make the recorded callbacks until one returns less than it was given. -/
def replay (sink : ResponseSink) : List Callback → List Callback × Bool
  | [] => ([], true)
  | callback :: rest =>
    if (callback.call sink).2.toNat
        = callback.chunk.size.toNat * callback.chunk.count.toNat then
      (callback :: (replay (callback.call sink).1 rest).1,
        (replay (callback.call sink).1 rest).2)
    else ([callback], false)

theorem replay_complete (callbacks : List Callback) :
    ∀ sink, (replay sink callbacks).2 = true → AllComplete sink (replay sink callbacks).1 := by
  induction callbacks with
  | nil => exact fun _ _ => trivial
  | cons callback rest ih =>
    intro sink h
    rw [replay] at h ⊢
    split at h
    · next hcomplete =>
      rw [if_pos hcomplete]
      exact ⟨hcomplete, ih _ h⟩
    · cases h

/-- A libcurl that delivers a recorded response of status 200 into the sink it is
given, and reports a write error when a callback stops it. -/
def Curl.recorded (callbacks : List Callback) : Curl where
  easy_escape := fun key => some (UrlText.percentEncode (c_str key))
  easy_setopt := fun _ => .CURLE_OK
  easy_perform := fun options =>
    -- the sink is the fifth option that is set
    match options with
    | _ :: _ :: _ :: _ :: .WRITEDATA sink :: _ =>
      let (callbacks, completed) := replay sink callbacks
      ⟨callbacks, if completed then .CURLE_OK else .other 23, some 200⟩
    | _ => ⟨[], .other 43, none⟩
  easy_strerror := fun _ => text "Failed writing received data to disk/application"

theorem recorded_aborts (callbacks : List Callback) :
    (Curl.recorded callbacks).AbortsOnShortReturn := by
  intro config url hok
  refine replay_complete callbacks config.sink ?_
  by_contra hshort
  simp only [Curl.recorded, HttpClientConfig.options, if_neg hshort] at hok
  cases hok

/-- A chunk of single bytes. -/
def Chunk.of (data : Bytes) (h : data.length < 2 ^ 64) : Chunk where
  data := data
  size := 1
  count := UInt64.ofNat data.length
  holds := by
    rw [UInt64.toNat_ofNat_of_lt' h]
    exact (Nat.one_mul _).symm

/-! ## The result -/

/-- **No truncated, reordered or oversized body is ever returned as a success.**
In every sequence of callbacks the body stays within the limit, the subtraction
does not underflow and the product does not wrap; a response that is returned
has exactly the delivered bytes as its body; and a chunk of representable size
over the limit makes the result an `InvalidRequest`. A chunk whose size is not
representable makes the result an error. -/
theorem body_exact (curl : Curl) (hcurl : curl.AbortsOnShortReturn) :
    (∀ (limit : UInt64) (before : List Callback) (chunk : Chunk),
      let sink := deliver { limit := limit } before
      (0 < limit → sink.response.body.length ≤ limit.toNat
        ∧ sink.body_size ≤ sink.limit
        ∧ (sink.limit - sink.body_size).toNat + sink.response.body.length = limit.toNat)
      ∧ (¬ (chunk.size ≠ 0 ∧ chunk.count > size_max / chunk.size) →
        (chunk.size * chunk.count).toNat = chunk.size.toNat * chunk.count.toNat))
    ∧ (∀ (client : HttpClient) (path : Bytes) (response : HttpResponse),
      client.get curl path = .ok response → ∃ config options,
        client.sent curl path = some (config, options)
        ∧ response.body = (curl.easy_perform options).callbacks.flatMap Callback.body
        ∧ (config.max_response_bytes = 0
            ∨ response.body.length ≤ config.max_response_bytes.toNat))
    ∧ (∀ (client : HttpClient) (path : Bytes) (config : HttpClientConfig)
        (options : List CurlOption) (before : List Callback) (chunk : Chunk)
        (after : List Callback),
      client.sent curl path = some (config, options) →
      (curl.easy_perform options).callbacks = before ++ .write chunk :: after →
      (chunk.Representable → chunk.Exceeds (deliver config.sink before) →
        ∃ error, client.get curl path = .error error ∧ error.code = .InvalidRequest)
      ∧ (¬ chunk.Representable → ∃ error, client.get curl path = .error error)) := by
  refine ⟨fun limit before chunk => ?_, fun client path response hget => ?_,
    fun client path config options before chunk after hsent hcallbacks => ?_⟩
  · refine ⟨deliver_within before, fun hguard => ?_⟩
    have hrep := not_not.mp (mt (product_guard chunk).mpr hguard)
    rw [bytes_toNat hrep, chunk.holds]
  · rcases get_cases client curl path with ⟨-, error, herror⟩
        | ⟨config, options, -, -, hrequest, hsent, hfinish⟩
    · rw [herror] at hget
      cases hget
    · obtain ⟨url, -, rfl, -⟩ := request_ok hrequest
      rw [hfinish] at hget
      obtain ⟨-, hresult, hbody⟩ := finish_ok hget
      obtain ⟨-, -, -, hstream⟩ := deliver_spec
        (curl.easy_perform (config.options url)).callbacks
        (sink_bounded config.max_response_bytes)
      refine ⟨config, _, hsent, ?_, ?_⟩
      · rw [hbody]
        exact hstream (hcurl config url hresult)
      · refine or_iff_not_imp_left.mpr fun hlimit => ?_
        rw [hbody]
        exact (deliver_within _ (UInt64.pos_iff_ne_zero.mpr hlimit)).1
  · obtain ⟨-, hrequest, hfinish⟩ := sent_spec hsent
    rw [hfinish]
    refine ⟨fun hrep hexceeds => ?_, fun hrep => ?_⟩
    · rw [hcallbacks]
      exact finish_overflowed (deliver_overflowed hrep hexceeds)
    -- a response would mean that every callback was complete
    · cases hresult : finish curl (curl.easy_perform options)
          (deliver config.sink (curl.easy_perform options).callbacks) with
      | error error => exact ⟨error, rfl⟩
      | ok response =>
        obtain ⟨url, -, rfl, -⟩ := request_ok hrequest
        obtain ⟨-, hok, -⟩ := finish_ok hresult
        have hall := hcurl config url hok
        rw [hcallbacks] at hall
        exact absurd (allComplete_append before _ _ hall).1 (not_complete hrep)

/-- Two chunks under a limit of four bytes. -/
def two_chunks : List Callback :=
  [.write (Chunk.of (text "ab") (by decide)), .write (Chunk.of (text "c") (by decide))]

theorem body_exact_two_chunks :
    HttpClient.get ⟨some { max_response_bytes := 4 }⟩ (Curl.recorded two_chunks) (text "/v1")
        = .ok ⟨200, text "abc", []⟩
      ∧ text "abc" = two_chunks.flatMap Callback.body := by
  have hget : HttpClient.get ⟨some { max_response_bytes := 4 }⟩ (Curl.recorded two_chunks)
      (text "/v1") = .ok ⟨200, text "abc", []⟩ := rfl
  obtain ⟨config, options, hsent, hbody, -⟩ :=
    (body_exact (Curl.recorded two_chunks) (recorded_aborts two_chunks)).2.1 _ _ _ hget
  cases hsent
  exact ⟨hget, hbody⟩

/-- A chunk of `2^64` bytes. -/
def oversized_chunk : Chunk where
  data := List.replicate (2 ^ 64) 0
  size := UInt64.ofNat (2 ^ 32)
  count := UInt64.ofNat (2 ^ 32)
  holds := List.length_replicate

/-- The guard of the product refuses a chunk without leaving the mark, so what
libcurl reports decides which error is returned. -/
theorem oversized_product_is_no_invalid_request :
    ¬ ∀ (curl : Curl) (client : HttpClient) (path : Bytes) (config : HttpClientConfig)
        (options : List CurlOption) (before : List Callback) (chunk : Chunk)
        (after : List Callback),
      curl.AbortsOnShortReturn →
      client.sent curl path = some (config, options) →
      (curl.easy_perform options).callbacks = before ++ .write chunk :: after →
      chunk.Exceeds (deliver config.sink before) →
      ∃ error, client.get curl path = .error error ∧ error.code = .InvalidRequest := by
  intro h
  let config : HttpClientConfig := { max_response_bytes := 4 }
  let curl := Curl.recorded [.write oversized_chunk]
  let options := config.options (config.join_url (text "/v1"))
  have hrefused : write_callback config.sink oversized_chunk = (config.sink, 0) := by
    rw [write_callback, if_pos (by decide)]
  have hreplay : replay config.sink [.write oversized_chunk]
      = ([.write oversized_chunk], false) := by
    rw [replay, Callback.call, hrefused]
    exact if_neg (by decide)
  have hperform : curl.easy_perform options
      = ⟨[.write oversized_chunk], .other 23, some 200⟩ := by
    simp only [curl, options, Curl.recorded, HttpClientConfig.options, hreplay]
    rfl
  have hexceeds : oversized_chunk.Exceeds config.sink := by
    refine ⟨by decide, ?_⟩
    rw [oversized_chunk.holds]
    decide
  have hget : HttpClient.get ⟨some config⟩ curl (text "/v1")
      = .error (Error.network (curl.easy_strerror (.other 23))) := by
    have hsent : HttpClient.sent ⟨some config⟩ curl (text "/v1") = some (config, options) := rfl
    rw [(sent_spec hsent).2.2, hperform, deliver, List.foldl_cons, List.foldl_nil, Callback.call,
      hrefused]
    rfl
  obtain ⟨error, herror, hcode⟩ := h curl ⟨some config⟩ (text "/v1") config options []
    oversized_chunk [] (recorded_aborts _) rfl (by rw [hperform]; rfl) hexceeds
  rw [hget] at herror
  cases herror
  cases hcode

end OpenMeteo
