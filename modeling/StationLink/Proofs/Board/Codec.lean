import StationLink.Proofs.Board.Dispatch
import StationLink.Proofs.Text.Lines
import StationLink.Proofs.Text.Numbers
import StationLink.Protocol.Request

/-!
# Requests and the orders they become

The line of a request is trimmed as a whole and parted by rules of the board's own. A request whose
fields have no line ends is carried out as one order, and that order has the fields of the request,
a last text field without the blanks at its end.
-/

namespace StationLink.Board

open Text

theorem isLineEnd_of_mem_encode {t : Text} (hfeed : '\n' ∉ t) (hreturn : '\r' ∉ t) :
    ∀ b ∈ Utf8.encode t, isLineEnd b = false := by
  intro b hb
  have h₁ : b ≠ 0x0A := by
    rintro rfl
    exact Utf8.not_mem_encode t 0x0A (by decide) hfeed hb
  have h₂ : b ≠ 0x0D := by
    rintro rfl
    exact Utf8.not_mem_encode t 0x0D (by decide) hreturn hb
  simp [isLineEnd, h₁, h₂]

/-- A text that is one run of bytes between line ends. -/
structure Sendable (t : Text) : Prop where
  ne_nil : t ≠ []
  lineFeed : '\n' ∉ t
  carriageReturn : '\r' ∉ t

namespace Sendable

variable {t : Text}

theorem encode_ne_nil (h : Sendable t) : Utf8.encode t ≠ [] := by
  intro hnil
  have hdecode := Utf8.decode_encode t
  rw [hnil] at hdecode
  exact h.ne_nil hdecode.symm

theorem isLineEnd_of_mem_encode (h : Sendable t) : ∀ b ∈ Utf8.encode t, isLineEnd b = false :=
  Board.isLineEnd_of_mem_encode h.lineFeed h.carriageReturn

end Sendable

end StationLink.Board

namespace StationLink.Protocol.Request

open Text Board

def texts (r : Request) : List Text :=
  r.fields.filterMap fun
    | .text t => some t
    | .number _ => none

/-- No field ends the line early. -/
def FreeOfLineEnds (r : Request) : Prop :=
  ∀ t ∈ r.texts, '\n' ∉ t ∧ '\r' ∉ t

theorem freeOfLineEnds_of_texts_nil {r : Request} (h : r.texts = []) : r.FreeOfLineEnds := by
  intro t ht
  rw [h] at ht
  cases ht

/-- A number among the fields is no longer than the longest numeral. -/
def ShortNumbers : Request → Prop
  | tcpConnect _ port => (Nat.toDigits 10 port.natAbs).length ≤ Numeral.limit
  | _ => True

/-- The fields can be told apart: a network name has no colon, and a host is not empty. -/
def Separable : Request → Prop
  | connect ssid _ => ':' ∉ ssid
  | tcpConnect host _ => host ≠ []
  | _ => True

def order : Request → Order
  | connect ssid password => .connect ssid (trimEnd password)
  | status => .status
  | scan => .scan
  | disconnect => .disconnect
  | address => .address
  | tcpConnect host port => .tcpConnect host port
  | tcpSend data => .tcpSend (trimEnd data)
  | tcpClose => .tcpClose

theorem line?_connect (ssid password : Text) :
    (connect ssid password).line? = some ("CONNECT:".toList ++ (ssid ++ ':' :: password)) := by
  have h : (connect ssid password).line? =
      some ("CONNECT".toList ++ (':' :: ssid ++ (':' :: password ++ []))) := rfl
  rw [h]
  simp

theorem line?_tcpSend (data : Text) : (tcpSend data).line? = some ("TCPSEND:".toList ++ data) := by
  have h : (tcpSend data).line? = some ("TCPSEND".toList ++ (':' :: data ++ [])) := rfl
  rw [h]
  simp

theorem line?_tcpConnect_eq (host : Text) (port : Int) :
    (tcpConnect host port).line? =
      (Numeral.write? port).map fun number => "TCPCONNECT:".toList ++ (host ++ ':' :: number) := by
  have hline : (tcpConnect host port).line? =
      ((Numeral.write? port).bind fun number => some [host, number]).map fun parts =>
        "TCPCONNECT".toList ++ parts.flatMap (':' :: ·) := by
    simp only [line?, Protocol.line?, fields, List.mapM_cons, List.mapM_nil, Field.write?]
    cases Numeral.write? port <;> rfl
  rw [hline]
  cases Numeral.write? port with
  | none => rfl
  | some number => simp

theorem line?_tcpConnect (host number : Text) (port : Int) (h : Numeral.write? port = some number) :
    (tcpConnect host port).line? = some ("TCPCONNECT:".toList ++ (host ++ ':' :: number)) := by
  rw [line?_tcpConnect_eq, h]
  rfl

theorem line?_eq_none_iff (r : Request) :
    r.line? = none ↔
      ∃ host port, r = .tcpConnect host port ∧ Nat.pow 10 Numeral.limit ≤ port.natAbs := by
  constructor
  · intro hnone
    cases r with
    | tcpConnect host port =>
      rw [line?_tcpConnect_eq, Option.map_eq_none_iff, Numeral.write?_eq_none_iff] at hnone
      exact ⟨host, port, rfl, hnone⟩
    | connect ssid password => cases (line?_connect ssid password).symm.trans hnone
    | tcpSend data => cases (line?_tcpSend data).symm.trans hnone
    | status => cases hnone
    | scan => cases hnone
    | disconnect => cases hnone
    | address => cases hnone
    | tcpClose => cases hnone
  · rintro ⟨host, port, rfl, hlong⟩
    rw [line?_tcpConnect_eq, (Numeral.write?_eq_none_iff port).mpr hlong]
    rfl

theorem exists_line (r : Request) (h : r.ShortNumbers) : ∃ line, r.line? = some line := by
  cases r with
  | connect ssid password => exact ⟨_, line?_connect ssid password⟩
  | tcpConnect host port =>
    obtain ⟨number, hnumber⟩ := Option.isSome_iff_exists.mp ((Numeral.write?_isSome_iff port).mpr h)
    exact ⟨_, line?_tcpConnect host number port hnumber⟩
  | tcpSend data => exact ⟨_, line?_tcpSend data⟩
  | status => exact ⟨_, rfl⟩
  | scan => exact ⟨_, rfl⟩
  | disconnect => exact ⟨_, rfl⟩
  | address => exact ⟨_, rfl⟩
  | tcpClose => exact ⟨_, rfl⟩

end StationLink.Protocol.Request

namespace StationLink.Board.Order

open Text Protocol

/-- A line that begins with the letter of the TCP verbs is no order about WiFi. -/
theorem not_wifi_of_head (line : Text) (h : line.head? = some 'T') :
    after? (Verb.connect.word ++ [':']) line = none ∧ line ≠ Verb.status.word ∧
      line ≠ Verb.scan.word ∧ line ≠ Verb.disconnect.word := by
  obtain ⟨t, rfl⟩ := List.head?_eq_some_iff.mp h
  have hword (c : Char) (rest : Text) (hc : 'T' ≠ c) : 'T' :: t ≠ c :: rest := by
    intro heq
    cases heq
    exact hc rfl
  refine ⟨?_, hword 'S' _ (by decide), hword 'S' _ (by decide), hword 'D' _ (by decide)⟩
  rw [Option.eq_none_iff_forall_ne_some]
  intro rest hrest
  exact hword 'C' _ (by decide) ((after?_eq_some_iff _ _ _).mp hrest)

theorem ofText_of_trim_connect (text ssid password : Text) (hssid : ':' ∉ ssid)
    (h : trim text = "CONNECT:".toList ++ (ssid ++ ':' :: password)) :
    ofText text = .connect ssid password := by
  have hafter : after? (Verb.connect.word ++ [':']) ("CONNECT:".toList ++ (ssid ++ ':' :: password)) =
      some (ssid ++ ':' :: password) :=
    (after?_eq_some_iff _ _ _).mpr rfl
  have hcut : cutFirst? ':' (ssid ++ ':' :: password) = some (ssid, password) :=
    (cutFirst?_eq_some_iff _ _ _ _).mpr ⟨rfl, hssid⟩
  simp only [ofText, h, hafter, ofConnect, hcut]

theorem ofText_of_trim_tcpSend (text data : Text) (h : trim text = "TCPSEND:".toList ++ data) :
    ofText text = .tcpSend data := by
  obtain ⟨hconnect, hstatus, hscan, hdisconnect⟩ := not_wifi_of_head ("TCPSEND:".toList ++ data) rfl
  have hcall : after? (Verb.tcpConnect.word ++ [':']) ("TCPSEND:".toList ++ data) = none := rfl
  have hsend : after? (Verb.tcpSend.word ++ [':']) ("TCPSEND:".toList ++ data) = some data :=
    (after?_eq_some_iff _ _ _).mpr rfl
  simp only [ofText, h, hconnect, hstatus, hscan, hdisconnect, if_false, hcall, hsend]

theorem ofText_of_trim_call (text host port : Text) (hport : ':' ∉ port)
    (h : trim text = "TCPCONNECT:".toList ++ (host ++ ':' :: port)) :
    ofText text =
      if host = [] then .tcpConnectWithoutHost else .tcpConnect host (Numeral.lenient port) := by
  obtain ⟨hconnect, hstatus, hscan, hdisconnect⟩ :=
    not_wifi_of_head ("TCPCONNECT:".toList ++ (host ++ ':' :: port)) rfl
  have hcall : after? (Verb.tcpConnect.word ++ [':'])
      ("TCPCONNECT:".toList ++ (host ++ ':' :: port)) = some (host ++ ':' :: port) :=
    (after?_eq_some_iff _ _ _).mpr rfl
  have hcut : cutLast? ':' (host ++ ':' :: port) = some (host, port) :=
    (cutLast?_eq_some_iff _ _ _ _).mpr ⟨rfl, hport⟩
  simp only [ofText, h, hconnect, hstatus, hscan, hdisconnect, if_false, hcall, ofTcpConnect, hcut]

theorem ofText_of_trim_tcpConnect (text host port : Text) (hhost : host ≠ []) (hport : ':' ∉ port)
    (h : trim text = "TCPCONNECT:".toList ++ (host ++ ':' :: port)) :
    ofText text = .tcpConnect host (Numeral.lenient port) := by
  rw [ofText_of_trim_call text host port hport h, if_neg hhost]

theorem ofText_of_trim_tcpClose (text : Text) (h : trim text = "TCPCLOSE".toList) :
    ofText text = .tcpClose := by
  have hclose : ofText "TCPCLOSE".toList = .tcpClose := by decide
  have htrim : trim "TCPCLOSE".toList = "TCPCLOSE".toList := by decide
  rw [← hclose]
  simp only [ofText, h, htrim]

theorem ofText_connect (ssid password : Text) (h : ':' ∉ ssid) :
    ofText ("CONNECT:".toList ++ (ssid ++ ':' :: password)) = .connect ssid (trimEnd password) := by
  apply ofText_of_trim_connect _ ssid (trimEnd password) h
  rw [trim_append_of_not_blank _ _ (by decide) (by decide), trimEnd_append_cons _ _ _ (by decide)]

theorem ofText_tcpSend (data : Text) :
    ofText ("TCPSEND:".toList ++ data) = .tcpSend (trimEnd data) := by
  apply ofText_of_trim_tcpSend
  rw [trim_append_of_not_blank _ _ (by decide) (by decide)]

theorem ofText_call (host number : Text) (port : Int) (h : Numeral.write? port = some number) :
    ofText ("TCPCONNECT:".toList ++ (host ++ ':' :: number)) =
      if host = [] then .tcpConnectWithoutHost else .tcpConnect host port := by
  have hblank := Numeral.not_blank_of_mem_write? port number h
  have hcolon : ':' ∉ number := Numeral.not_mem_write? port number ':' h (by decide) (by decide)
  have hend : trimEnd (host ++ ':' :: number) = host ++ ':' :: number := by
    rw [trimEnd_append_cons _ _ _ (by decide), trimEnd_of_not_blank number hblank]
  rw [← Numeral.lenient_of_write? port number h]
  apply ofText_of_trim_call _ host number hcolon
  rw [trim_append_of_not_blank _ _ (by decide) (by decide), hend]

theorem ofText_tcpConnect (host number : Text) (port : Int) (hhost : host ≠ [])
    (h : Numeral.write? port = some number) :
    ofText ("TCPCONNECT:".toList ++ (host ++ ':' :: number)) = .tcpConnect host port := by
  rw [ofText_call host number port h, if_neg hhost]

/-- A colon in the name of the network cuts it short. -/
theorem ofText_join (ssid password : Text) :
    ∃ name rest, ':' ∉ name ∧ name <+: ssid ∧
      ofText ("CONNECT:".toList ++ (ssid ++ ':' :: password)) = .connect name rest := by
  have htrim : trim ("CONNECT:".toList ++ (ssid ++ ':' :: password)) =
      "CONNECT:".toList ++ (ssid ++ ':' :: trimEnd password) := by
    rw [trim_append_of_not_blank _ _ (by decide) (by decide), trimEnd_append_cons _ _ _ (by decide)]
  by_cases hssid : ':' ∈ ssid
  · obtain ⟨name, more, rfl, hname⟩ := List.eq_append_cons_of_mem hssid
    refine ⟨name, more ++ ':' :: trimEnd password, hname, List.prefix_append _ _, ?_⟩
    apply ofText_of_trim_connect _ name _ hname
    rw [htrim, List.append_assoc, List.cons_append]
  · exact ⟨ssid, trimEnd password, hssid, List.prefix_rfl, ofText_of_trim_connect _ ssid _ hssid htrim⟩

end StationLink.Board.Order

namespace StationLink.Protocol.Request

open Text Board

theorem ofText_line (r : Request) (line : Text) (h : r.line? = some line) (hsep : r.Separable) :
    Order.ofText line = r.order := by
  cases r with
  | connect ssid password =>
    obtain rfl := Option.some.inj ((line?_connect ssid password).symm.trans h)
    exact Order.ofText_connect ssid password hsep
  | tcpConnect host port =>
    rw [line?_tcpConnect_eq] at h
    obtain ⟨number, hnumber, rfl⟩ := Option.map_eq_some_iff.mp h
    exact Order.ofText_tcpConnect host number port hsep hnumber
  | tcpSend data =>
    obtain rfl := Option.some.inj ((line?_tcpSend data).symm.trans h)
    exact Order.ofText_tcpSend data
  | status =>
    cases h
    decide
  | scan =>
    cases h
    decide
  | disconnect =>
    cases h
    decide
  | address =>
    cases h
    decide
  | tcpClose =>
    cases h
    decide

theorem exists_field_of_mem (fs : List Field) (parts : List Text)
    (h : fs.mapM Field.write? = some parts) : ∀ t ∈ parts, ∃ f ∈ fs, f.write? = some t := by
  induction fs generalizing parts with
  | nil =>
    cases h
    simp
  | cons f fs ih =>
    rw [List.mapM_cons] at h
    obtain ⟨first, hfirst, h⟩ := Option.bind_eq_some_iff.mp h
    obtain ⟨rest, hrest, h⟩ := Option.bind_eq_some_iff.mp h
    obtain rfl := Option.some.inj h
    intro t ht
    rcases List.mem_cons.mp ht with rfl | ht
    · exact ⟨f, List.mem_cons_self, hfirst⟩
    · obtain ⟨g, hg, hgt⟩ := ih rest hrest t ht
      exact ⟨g, List.mem_cons_of_mem f hg, hgt⟩

theorem isUpper_of_mem_word (v : Verb) : ∀ c ∈ v.word, c.isUpper = true := by
  have hall : v.word.all Char.isUpper = true := by cases v <;> decide
  exact List.all_eq_true.mp hall

/-- A character that neither the words nor the numbers have is in the line only by a text field. -/
theorem not_mem_line (r : Request) (line : Text) (c : Char) (h : r.line? = some line)
    (hword : c.isUpper = false) (hcolon : c ≠ ':') (hdigit : c.isDigit = false) (hsign : c ≠ '-')
    (htexts : ∀ t ∈ r.texts, c ∉ t) : c ∉ line := by
  obtain ⟨parts, hfields, rfl⟩ := Option.map_eq_some_iff.mp h
  simp only [List.mem_append, List.mem_flatMap, List.mem_cons, not_or, not_exists, not_and]
  refine ⟨fun hc => ?_, fun t ht => ⟨hcolon, ?_⟩⟩
  · rw [isUpper_of_mem_word r.verb c hc] at hword
    cases hword
  · obtain ⟨f, hf, hft⟩ := exists_field_of_mem r.fields parts hfields t ht
    cases f with
    | text u =>
      obtain rfl := Option.some.inj hft
      exact htexts u (List.mem_filterMap.mpr ⟨.text u, hf, rfl⟩)
    | number n => exact Numeral.not_mem_write? n t c hft hdigit hsign

theorem line?_ne_nil (r : Request) : r.line? ≠ some [] := by
  intro h
  obtain ⟨parts, _, hline⟩ := Option.map_eq_some_iff.mp h
  have hword : r.verb.word = [] := (List.append_eq_nil_iff.mp hline).1
  cases r <;> cases hword

theorem sendable_line (r : Request) (line : Text) (h : r.line? = some line)
    (hends : r.FreeOfLineEnds) : Sendable line := by
  refine ⟨fun hnil => r.line?_ne_nil (hnil ▸ h), ?_, ?_⟩
  · exact not_mem_line r line '\n' h (by decide) (by decide) (by decide) (by decide)
      fun t ht => (hends t ht).1
  · exact not_mem_line r line '\r' h (by decide) (by decide) (by decide) (by decide)
      fun t ht => (hends t ht).2

end StationLink.Protocol.Request
