import RubySupervisor.Proofs.Json.Writing
import RubySupervisor.Server.Frame

/-!
# Messages read back

The kind of a message is not written: it is recovered from the fields that the document has. What
is read back is the message that was written, except that a result and the data of an error that
are `null` count as absent.
-/

namespace RubySupervisor

open Json (Record)

/-- Whether a value can be the payload of a message: its numbers are integers of 64 bits, and the
names in its objects ascend. -/
structure Json.Payload (j : Json) : Prop where
  integral : j.Integral
  ordered : j.Ordered

/-- Whether an identifier is one of the protocol: a text or an integer of 32 bits. -/
inductive RequestId.Fits : RequestId → Prop where
  | number {n : Int} (h : -2147483648 ≤ n ∧ n < 2147483648) : Fits (number n)
  | text (s : String) : Fits (text s)

/-- Whether an error is one of the protocol: its code has 32 bits, and its data is a payload. -/
structure ResponseError.Fits (e : ResponseError) : Prop where
  code : -2147483648 ≤ e.code ∧ e.code ≤ 2147483647
  data : ∀ data ∈ e.data, data.Payload

/-- The messages that can be sent. -/
inductive Message.Sendable : Message → Prop where
  | request {r : Request} (hid : r.id.Fits) (hparams : r.params.Payload) : Sendable (.request r)
  | response {r : Response} (hid : r.id.Fits) (hresult : ∀ result ∈ r.result, result.Payload)
      (herror : ∀ error ∈ r.error, error.Fits) : Sendable (.response r)
  | notification {n : Notification} (hparams : n.params.Payload) : Sendable (.notification n)

/-- An optional payload that counts as absent when it is `null`. -/
def Json.unlessNull : Option Json → Option Json
  | some null => none
  | payload => payload

/-- The error without data that is `null`. -/
def ResponseError.withoutNull (e : ResponseError) : ResponseError :=
  { e with data := Json.unlessNull e.data }

/-- The response without a result and without data of an error that are `null`. -/
def Response.withoutNull (r : Response) : Response :=
  { r with result := Json.unlessNull r.result, error := r.error.map ResponseError.withoutNull }

/-- The message without a result and without data of an error that are `null`. -/
def Message.withoutNull : Message → Message
  | request r => request r
  | response r => response r.withoutNull
  | notification n => notification n

/-- An optional payload is read back, and counts as absent when it is `null`. -/
theorem Json.Record.optionalOrAbsent_payload {r : Record} {name : String} {payload : Option Json}
    (hfield : r.field? name = payload) (hpayload : ∀ j ∈ payload, j.Payload) :
    r.optionalOrAbsent name (fun j => some j.canonical) = some (unlessNull payload) := by
  rw [optionalOrAbsent, hfield]
  cases payload with
  | none => rfl
  | some j =>
    have hcanonical := (hpayload j rfl).ordered.canonical_eq
    cases j <;> simp [unlessNull, hcanonical]

/-- A field that no member has is missing where it must be present. -/
theorem Json.Record.required_eq_none {names : List String} {name : String}
    {members : List (String × Json)} {r : Record} {α : Type} {decode : Json → Option α}
    (h : ofJson? names (object members) = some r) (hname : ∀ member ∈ members, member.1 ≠ name) :
    r.required name decode = none := by
  have hfield : r.field? name = none := by
    simp only [ofJson?] at h
    split at h
    · cases h
      simp only [field?, Option.map_eq_none_iff, List.find?_eq_none, decide_eq_true_eq]
      exact fun member hmember => hname member (List.mem_filter.1 hmember).1
    · cases h
  rw [required, hfield, Option.bind_none]

/-! ## Identifiers and errors -/

theorem RequestId.Fits.integral {id : RequestId} (h : id.Fits) : id.toJson.Integral := by
  cases h with
  | number h => exact .int (by omega)
  | text s => exact .text s

theorem RequestId.Fits.ofJson? {id : RequestId} (h : id.Fits) :
    RequestId.ofJson? id.toJson = some id := by
  cases h with
  | number h => simp [toJson, RequestId.ofJson?, h]
  | text s => rfl

theorem ResponseError.Fits.integral {e : ResponseError} (h : e.Fits) : e.toJson.Integral := by
  have hcode := h.code
  refine .object fun member hmember => ?_
  simp only [List.mem_append, List.mem_cons, List.not_mem_nil, or_false, Option.mem_toList,
    Option.map_eq_some_iff] at hmember
  obtain (rfl | rfl) | ⟨data, hdata, rfl⟩ := hmember
  · exact .int (by omega)
  · exact .text e.message
  · exact (h.data data hdata).integral

/-- An error is read back without data that is `null`. -/
theorem ResponseError.Fits.ofJson? {e : ResponseError} (h : e.Fits) :
    ResponseError.ofJson? e.toJson = some e.withoutNull := by
  have hcode := h.code
  obtain ⟨code, message, data⟩ := e
  let r : Record := ⟨false, [("code", .int code), ("message", .text message)]
    ++ (data.map (fun data => ("data", data))).toList⟩
  have hrecord : Record.ofJson? ["code", "message", "data"] (toJson ⟨code, message, data⟩) =
      some r := by
    cases data <;> rfl
  have hdata : r.optionalOrAbsent "data" (fun data => some data.canonical) =
      some (Json.unlessNull data) :=
    Record.optionalOrAbsent_payload (by cases data <;> rfl) h.data
  rw [ResponseError.ofJson?, hrecord]
  simp only [Option.bind_eq_bind, Option.bind_some, hdata]
  simp [r, Record.required, Record.field?, Json.intBetween?, Json.text?, withoutNull, hcode]

/-! ## Messages -/

/-- The parameters that are written are a payload. -/
theorem Message.integral_of_mem_paramsMember {params : Json} (h : params.Payload)
    {member : String × Json} (hmember : member ∈ paramsMember params) : member.2.Integral := by
  unfold paramsMember at hmember
  split at hmember
  · cases hmember
  · obtain rfl := List.mem_singleton.1 hmember
    exact h.integral

/-- What a message writes has integers of 64 bits. -/
theorem Message.Sendable.integral {m : Message} (h : m.Sendable) : m.toJson.Integral := by
  refine .object fun member hmember => ?_
  rcases List.mem_cons.1 hmember with rfl | hmember
  · exact .text "2.0"
  cases h with
  | request hid hparams =>
    simp only [members, List.cons_append, List.nil_append, List.mem_cons] at hmember
    obtain rfl | rfl | hmember := hmember
    · exact hid.integral
    · exact .text _
    · exact integral_of_mem_paramsMember hparams hmember
  | response hid hresult herror =>
    simp only [members, Response.toJson, Json.members?, Option.getD_some, List.mem_append,
      List.mem_singleton, Option.mem_toList, Option.map_eq_some_iff] at hmember
    obtain (rfl | ⟨result, hsome, rfl⟩) | ⟨error, hsome, rfl⟩ := hmember
    · exact hid.integral
    · exact (hresult result hsome).integral
    · exact (herror error hsome).integral
  | notification hparams =>
    rcases List.mem_cons.1 hmember with rfl | hmember
    · exact .text _
    · exact integral_of_mem_paramsMember hparams hmember

/-- A request is read back. -/
theorem Message.requestOf?_request {r : Request} (hid : r.id.Fits) (hparams : r.params.Payload) :
    requestOf? (request r).toJson = some r := by
  have hcanonical := hparams.ordered.canonical_eq
  obtain ⟨id, method, params⟩ := r
  by_cases hnull : params = .null <;>
    simp_all [requestOf?, toJson, members, paramsMember, Record.ofJson?, Record.distinct,
      Record.required, Record.field?, Record.defaulted, Json.text?, hid.ofJson?]

/-- A notification is read back. -/
theorem Message.notificationOf?_notification {n : Notification} (hparams : n.params.Payload) :
    notificationOf? (notification n).toJson = some n := by
  have hcanonical := hparams.ordered.canonical_eq
  obtain ⟨method, params⟩ := n
  by_cases hnull : params = .null <;>
    simp_all [notificationOf?, toJson, members, paramsMember, Record.ofJson?, Record.distinct,
      Record.required, Record.field?, Record.defaulted, Json.text?]

/-- A response is read back without what is `null`. -/
theorem Message.responseOf?_response {r : Response} (hid : r.id.Fits)
    (hresult : ∀ result ∈ r.result, result.Payload) (herror : ∀ error ∈ r.error, error.Fits) :
    responseOf? (response r).toJson = some r.withoutNull := by
  obtain ⟨id, result, error⟩ := r
  let record : Record := ⟨false, [("id", id.toJson)]
    ++ (result.map (fun result => ("result", result))).toList
    ++ (error.map (fun error => ("error", error.toJson))).toList⟩
  have hrecord : Record.ofJson? ["id", "result", "error"] (response ⟨id, result, error⟩).toJson =
      some record := by
    cases result <;> cases error <;> rfl
  have hread : record.optionalOrAbsent "result" (fun result => some result.canonical) =
      some (Json.unlessNull result) :=
    Record.optionalOrAbsent_payload (by cases result <;> cases error <;> rfl) hresult
  have hfailed : record.optionalOrAbsent "error" ResponseError.ofJson? =
      some (error.map ResponseError.withoutNull) := by
    cases error with
    | none => cases result <;> rfl
    | some error =>
      have hfield : record.field? "error" = some error.toJson := by cases result <;> rfl
      rw [Record.optionalOrAbsent, hfield]
      exact congrArg (Option.map some) (herror error rfl).ofJson?
  have hid : record.required "id" RequestId.ofJson? = some id := hid.ofJson?
  rw [responseOf?, hrecord]
  simp only [Option.bind_eq_bind, Option.bind_some, hread, hfailed, hid]
  rfl

/-- A document without an identifier or without a method is no request. -/
theorem Message.requestOf?_eq_none {members : List (String × Json)}
    (h : (∀ member ∈ members, member.1 ≠ "id") ∨ ∀ member ∈ members, member.1 ≠ "method") :
    requestOf? (.object members) = none := by
  rw [requestOf?]
  cases hrecord : Record.ofJson? ["id", "method", "params"] (.object members) with
  | none => rfl
  | some r =>
    rcases h with hid | hmethod
    · simp [Record.required_eq_none hrecord hid]
    · simp [Record.required_eq_none hrecord hmethod]

/-- A document without an identifier is no response. -/
theorem Message.responseOf?_eq_none {members : List (String × Json)}
    (h : ∀ member ∈ members, member.1 ≠ "id") : responseOf? (.object members) = none := by
  rw [responseOf?]
  cases hrecord : Record.ofJson? ["id", "result", "error"] (.object members) with
  | none => rfl
  | some r => simp [Record.required_eq_none hrecord h]

/-- The message that a document of a message describes is that message without what is `null`. -/
theorem Message.Sendable.ofJson? {m : Message} (h : m.Sendable) :
    Message.ofJson? m.toJson = some m.withoutNull := by
  cases h with
  | request hid hparams => rw [Message.ofJson?, requestOf?_request hid hparams]; rfl
  | @response r hid hresult herror =>
    have hmethod : ∀ member ∈ ("jsonrpc", Json.text "2.0") :: (Message.response r).members,
        member.1 ≠ "method" := by
      obtain ⟨id, _ | result, _ | error⟩ := r <;> simp [members, Response.toJson, Json.members?]
    have hrequest : requestOf? (Message.response r).toJson = none :=
      requestOf?_eq_none (.inr hmethod)
    rw [Message.ofJson?, hrequest, responseOf?_response hid hresult herror]
    rfl
  | @notification n hparams =>
    have hid : ∀ member ∈ ("jsonrpc", Json.text "2.0") :: (Message.notification n).members,
        member.1 ≠ "id" := by
      simp [members, paramsMember]
    have hrequest : requestOf? (Message.notification n).toJson = none :=
      requestOf?_eq_none (.inl hid)
    have hresponse : responseOf? (Message.notification n).toJson = none := responseOf?_eq_none hid
    rw [Message.ofJson?, hrequest, hresponse, notificationOf?_notification hparams]
    rfl

/-- The outcome of a response changes in the data of its error only. -/
theorem Response.outcome_withoutNull (r : Response) :
    r.withoutNull.outcome = r.outcome.mapError ResponseError.withoutNull := by
  obtain ⟨id, result, error⟩ := r
  cases error with
  | some error => rfl
  | none =>
    cases result with
    | none => rfl
    | some result => cases result <;> rfl

/-- The body of a message is read back as the message, of the same kind, without a result and
without data of an error that are `null`. The outcome of a response is the same but for that
data. -/
theorem Message.decode?_utf8_encode {m : Message} (h : m.Sendable)
    (hdepth : m.toJson.depth ≤ Json.depthLimit) :
    Frame.decode? (Text.utf8 m.encode) = some m.withoutNull ∧
      ∀ r, m = response r → ∃ r', m.withoutNull = response r' ∧
        r'.outcome = r.outcome.mapError ResponseError.withoutNull := by
  refine ⟨?_, ?_⟩
  · rw [Frame.decode?, Text.ofUtf8?_utf8, Option.bind_some, decode?, encode,
      Json.read?_compact h.integral hdepth, Option.bind_some, h.ofJson?]
  · rintro r rfl
    exact ⟨r.withoutNull, rfl, r.outcome_withoutNull⟩

/-- A response that refuses a method and says `null` about the reason. -/
def refusal : Response :=
  .failure (.number 7) ⟨ResponseError.methodNotFound, "no \"such\"\nmethod", some .null⟩

/-- The reason is gone when the refusal is read back. -/
theorem Message.refusal_decoded :
    (response refusal).Sendable ∧ (response refusal).toJson.depth ≤ Json.depthLimit ∧
      Frame.decode? (Text.utf8 (response refusal).encode) =
        some (response (.failure (.number 7) ⟨-32601, "no \"such\"\nmethod", none⟩)) := by
  have hsendable : (response refusal).Sendable := by
    refine .response (.number (by decide)) (by simp [refusal, Response.failure]) ?_
    intro error herror
    obtain rfl : _ = error := Option.some_inj.1 herror
    refine ⟨by decide, fun data hdata => ?_⟩
    obtain rfl : _ = data := Option.some_inj.1 hdata
    exact ⟨.null, .null⟩
  have hdepth : (response refusal).toJson.depth ≤ Json.depthLimit := by decide
  exact ⟨hsendable, hdepth, (decode?_utf8_encode hsendable hdepth).1⟩

end RubySupervisor
