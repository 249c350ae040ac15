import Mathlib.Tactic.IntervalCases
import MediaServer.Model.Rpc

/-! # What the servant is called with

The structures of `stream.ice` are read back member by member. The table of operations is
sorted, so that `_iceDispatch` finds each of them, and each gets the parameters that the proxy
wrote. -/

namespace MediaServer.Encoding

open Coding

variable {e : Encoding}

/-! ## Structures -/

/-- Every member of the request can be written. -/
structure FitsReq (e : Encoding) (v : RealStreamReq) : Prop where
  id : e.string.Fits v.id
  callid : e.string.Fits v.callid
  ip : e.string.Fits v.ip
  port : e.int.Fits v.port
  userName : e.string.Fits v.userName
  password : e.string.Fits v.password
  destip : e.string.Fits v.destip
  destport : e.int.Fits v.destport
  ssrc : e.int.Fits v.ssrc
  pt : e.int.Fits v.pt
  sdk : e.string.Fits v.sdk

structure FitsResp (e : Encoding) (v : RealStreamRespParam) : Prop where
  id : e.string.Fits v.id
  callid : e.string.Fits v.callid
  sourceip : e.string.Fits v.sourceip
  sourceport : e.string.Fits v.sourceport

theorem readReq_writeReq (v : RealStreamReq) (rest : List UInt8) (h : e.FitsReq v) :
    e.readReq.run (e.writeReq v ++ rest) = some (v, rest) := by
  simp only [readReq, writeReq, List.append_assoc]
  rw [Codec.run_bind_write _ _ h.id, Codec.run_bind_write _ _ h.callid,
    Codec.run_bind_write _ _ h.ip, Codec.run_bind_write _ _ h.port,
    Codec.run_bind_write _ _ h.userName, Codec.run_bind_write _ _ h.password,
    Codec.run_bind_write _ _ h.destip, Codec.run_bind_write _ _ h.destport,
    Codec.run_bind_write _ _ h.ssrc, Codec.run_bind_write _ _ h.pt,
    Codec.run_bind_write _ _ h.sdk]
  rfl

theorem readResp_writeResp (v : RealStreamRespParam) (rest : List UInt8) (h : e.FitsResp v) :
    e.readResp.run (e.writeResp v ++ rest) = some (v, rest) := by
  simp only [readResp, writeResp, List.append_assoc]
  rw [Codec.run_bind_write _ _ h.id, Codec.run_bind_write _ _ h.callid,
    Codec.run_bind_write _ _ h.sourceip, Codec.run_bind_write _ _ h.sourceport]
  rfl

def req (e : Encoding) : Codec RealStreamReq :=
  ⟨e.writeReq, e.readReq, e.FitsReq, readReq_writeReq⟩

def resp (e : Encoding) : Codec RealStreamRespParam :=
  ⟨e.writeResp, e.readResp, e.FitsResp, readResp_writeResp⟩

/-- The client reads from a reply what was passed to `responseCB`. -/
theorem all_readOpenReply {ret : Bool} {stm : RealStreamRespParam} (hstm : e.FitsResp stm)
    (hret : e.bool.Fits ret) :
    e.readOpenReply.all (e.writeOpenReply ret stm) = some (ret, stm) := by
  have hret' : e.bool.read.run (e.bool.write ret) = some (ret, []) := by
    simpa using e.bool.read_write ret [] hret
  have hread : e.readOpenReply.run (e.writeOpenReply ret stm) = some ((ret, stm), []) := by
    rw [writeOpenReply, readOpenReply]
    rw [show e.readResp = e.resp.read from rfl, show e.writeResp = e.resp.write from rfl,
      Codec.run_bind_write _ _ hstm, StateT.run_bind, hret']
    rfl
  exact Reader.all_eq_some.mpr hread

/-! ## Operations -/

theorem ops_sorted : iceC_Media_Stream_ops.Pairwise (· < ·) := by
  decide

theorem ids_sorted : iceC_Media_Stream_ids.Pairwise (· < ·) := by
  decide

/-- The parameters of the call can be written. -/
def FitsCall (e : Encoding) : Call → Prop
  | .openRealStream ctg => e.FitsReq ctg
  | .closeStream id callid => e.string.Fits id ∧ e.string.Fits callid
  | .getStreamStatic id => e.string.Fits id
  | .getRecordFiles startTime endtime => e.string.Fits startTime ∧ e.string.Fits endtime
  | .openVodStream req => e.FitsReq req
  | .closeVodStream callid id => e.string.Fits callid ∧ e.string.Fits id
  | .controlVodStream cmd callid id =>
      e.string.Fits cmd ∧ e.string.Fits callid ∧ e.string.Fits id

/-- An operation of the table goes to the function at its place. -/
theorem iceDispatch_of_getElem? {m : Message} {k : Nat}
    (hk : iceC_Media_Stream_ops[k]? = some m.operation) :
    e.iceDispatch m = e.dispatchCase m k := by
  have hne : k ≠ k + 1 := Nat.ne_of_lt (Nat.lt_succ_self k)
  simp only [iceDispatch, Search.equalRange_of_getElem? ops_sorted hk, if_neg hne]

theorem call_of_run {r : Reader Call} {params : List UInt8} {c : Call}
    (h : r.run params = some (c, [])) : call r params = .called c := by
  rw [call, Reader.all_eq_some.mpr h]

theorem run_bind_string {s : String} (h : e.string.Fits s) {k : String → Reader Call} :
    (e.string.read >>= k).run (e.string.write s) = (k s).run [] := by
  have hrun := e.string.run_bind_write k h []
  rwa [List.append_nil] at hrun

theorem run_bind_req {v : RealStreamReq} (h : e.FitsReq v) {k : RealStreamReq → Reader Call} :
    (e.readReq >>= k).run (e.writeReq v) = (k v).run [] := by
  have hrun := e.req.run_bind_write k h []
  rwa [List.append_nil] at hrun

/-- The servant is called with what the client passed to the proxy. -/
theorem iceDispatch_invoke {c : Call} (h : e.FitsCall c) :
    e.iceDispatch (e.invoke c) = .called c := by
  cases c with
  | openRealStream ctg =>
      rw [iceDispatch_of_getElem? (k := 9) rfl]
      exact call_of_run (run_bind_req h)
  | closeStream id callid =>
      rw [iceDispatch_of_getElem? (k := 0) rfl]
      exact call_of_run ((Codec.run_bind_write _ _ h.1 _).trans (run_bind_string h.2))
  | getStreamStatic id =>
      rw [iceDispatch_of_getElem? (k := 4) rfl]
      exact call_of_run (run_bind_string h)
  | getRecordFiles startTime endtime =>
      rw [iceDispatch_of_getElem? (k := 3) rfl]
      exact call_of_run ((Codec.run_bind_write _ _ h.1 _).trans (run_bind_string h.2))
  | openVodStream req =>
      rw [iceDispatch_of_getElem? (k := 10) rfl]
      exact call_of_run (run_bind_req h)
  | closeVodStream callid id =>
      rw [iceDispatch_of_getElem? (k := 1) rfl]
      exact call_of_run ((Codec.run_bind_write _ _ h.1 _).trans (run_bind_string h.2))
  | controlVodStream cmd callid id =>
      rw [iceDispatch_of_getElem? (k := 2) rfl]
      exact call_of_run ((Codec.run_bind_write _ _ h.1 _).trans
        ((Codec.run_bind_write _ _ h.2.1 _).trans (run_bind_string h.2.2)))

/-- Exactly the operations that are not in the table are refused as unknown. -/
theorem iceDispatch_eq_operationNotExist {m : Message} :
    e.iceDispatch m = .operationNotExist m.operation ↔ m.operation ∉ iceC_Media_Stream_ops := by
  constructor
  · intro h hmem
    obtain ⟨k, hlt, hk⟩ := List.getElem_of_mem hmem
    rw [iceDispatch_of_getElem? (List.getElem?_eq_some_iff.mpr ⟨hlt, hk⟩)] at h
    have hcall : ∀ r : Reader Call, call r m.params ≠ .operationNotExist m.operation := by
      intro r
      unfold call
      split <;> simp
    have hlen : k < 11 := hlt
    interval_cases k
    all_goals first | exact hcall _ h | cases h
  · intro hnot
    rw [iceDispatch, if_pos (Search.equalRange_of_not_mem ops_sorted hnot)]

theorem iceIsA_iff (s : String) : iceIsA s = true ↔ s ∈ iceC_Media_Stream_ids :=
  Search.binarySearch_iff ids_sorted

/-- The proxy and the servant agree: a call arrives as it was made, different calls are
different messages, only what is not in the interface is refused as unknown, and the servant
knows itself by the ids of the interface only. -/
theorem proxy_and_servant_agree (e : Encoding) :
    (∀ c, e.FitsCall c → e.iceDispatch (e.invoke c) = .called c) ∧
      (∀ c c', e.FitsCall c → e.FitsCall c' → e.invoke c = e.invoke c' → c = c') ∧
      (∀ m, e.iceDispatch m = .operationNotExist m.operation ↔
        m.operation ∉ iceC_Media_Stream_ops) ∧
      ∀ s, iceIsA s = true ↔ s ∈ iceC_Media_Stream_ids := by
  refine ⟨fun c hc => iceDispatch_invoke hc, ?_,
    fun m => iceDispatch_eq_operationNotExist, iceIsA_iff⟩
  intro c c' hc hc' heq
  have hcalled := iceDispatch_invoke hc
  rw [heq, iceDispatch_invoke hc'] at hcalled
  exact (Dispatched.called.inj hcalled).symm

/-! The encoding of Ice writes strings of less than two gigabytes. -/

theorem fits_ice_of_size {str : String} (h : str.utf8ByteSize < 2 ^ 31) :
    ice.string.Fits str := by
  rw [← String.size_toByteArray] at h
  exact h

/-- The parameters of a close are not mixed up, and there is no way to restart. -/
theorem proxy_and_servant_agree_closeStream :
    ice.iceDispatch (ice.invoke (.closeStream "A" "c1")) = .called (.closeStream "A" "c1") ∧
      ice.invoke (.closeStream "A" "c1") ≠ ice.invoke (.closeStream "c1" "A") ∧
      ice.iceDispatch ⟨"restart", []⟩ = .operationNotExist "restart" ∧
      iceIsA "::Media::Stream" = true := by
  obtain ⟨hcalled, hinj, hunknown, hisA⟩ := proxy_and_servant_agree ice
  have hA : ice.string.Fits "A" := fits_ice_of_size (by decide)
  have hc1 : ice.string.Fits "c1" := fits_ice_of_size (by decide)
  refine ⟨hcalled (.closeStream "A" "c1") ⟨hA, hc1⟩, ?_,
    (hunknown ⟨"restart", []⟩).mpr (by decide), (hisA _).mpr (by decide)⟩
  intro heq
  have hsame := hinj (.closeStream "A" "c1") (.closeStream "c1" "A") ⟨hA, hc1⟩ ⟨hc1, hA⟩ heq
  simp at hsame

end MediaServer.Encoding
