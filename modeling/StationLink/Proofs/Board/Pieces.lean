import StationLink.Proofs.Board.Codec

/-!
# The pieces of a line

A line may hold line feeds and carriage returns where its fields do. The board carries out each piece
between them that is not empty. The first piece of a request has the verb of the request; every further
piece is an order of its own, whatever it says.
-/

namespace StationLink.Board

open Text Protocol

/-- The verb that an order was given with, also where its fields are malformed. -/
def Order.verb? : Order → Option Verb
  | .connect _ _ | .connectWithoutPassword => some .connect
  | .status => some .status
  | .scan => some .scan
  | .disconnect => some .disconnect
  | .tcpConnect _ _ | .tcpConnectWithoutHost => some .tcpConnect
  | .tcpSend _ => some .tcpSend
  | .tcpClose => some .tcpClose
  | .address => some .address
  | .unknown _ => none

/-- Whether a character ends a line where it is sent. -/
def endsLine (c : Char) : Bool :=
  c = '\n' || c = '\r'

/-- What stands between the line ends, without what is empty. -/
def pieces (t : Text) : List Text :=
  (t.splitOnP endsLine).filter (· ≠ [])

theorem not_mem_of_endsLine {t : Text} (h : ∀ c ∈ t, endsLine c = false) : '\n' ∉ t ∧ '\r' ∉ t := by
  constructor
  · intro hmem
    cases h '\n' hmem
  · intro hmem
    cases h '\r' hmem

theorem isLineEnd_of_encode {t : Text} (h : ∀ c ∈ t, endsLine c = false) :
    ∀ b ∈ Utf8.encode t, isLineEnd b = false := by
  obtain ⟨hfeed, hreturn⟩ := not_mem_of_endsLine h
  exact isLineEnd_of_mem_encode hfeed hreturn

/-- A text is parted as its bytes are. -/
theorem parted_encode {t u : Text} {ls : List Text} (h : Parted endsLine t ls u) :
    Parted isLineEnd (Utf8.encode t) (ls.map Utf8.encode) (Utf8.encode u) := by
  induction h with
  | tail ht => exact .tail (isLineEnd_of_encode ht)
  | @piece l xs e ls u hl he _ ih =>
    obtain ⟨b, hb, hbytes⟩ : ∃ b, isLineEnd b = true ∧ Utf8.encode (e :: xs) = b :: Utf8.encode xs := by
      simp only [endsLine, Bool.or_eq_true, decide_eq_true_eq] at he
      rcases he with rfl | rfl
      · exact ⟨0x0A, rfl, rfl⟩
      · exact ⟨0x0D, rfl, rfl⟩
    rw [Utf8.encode_append, hbytes]
    exact .piece (isLineEnd_of_encode hl) hb ih

theorem encode_eq_nil_iff (t : Text) : Utf8.encode t = [] ↔ t = [] := by
  constructor
  · intro hnil
    rw [← Utf8.decode_encode t, hnil]
    rfl
  · rintro rfl
    rfl

theorem filter_map_encode (ls : List Text) :
    (ls.map Utf8.encode).filter (· ≠ []) = (ls.filter (· ≠ [])).map Utf8.encode := by
  have hkept : ((· ≠ []) : Bytes → Bool) ∘ Utf8.encode = fun t : Text => decide (t ≠ []) := by
    funext t
    simp [encode_eq_nil_iff]
  rw [List.filter_map, hkept]

theorem textsOf_of_encode {runs : List Bytes} {ts : List Text}
    (h : runs.filter (· ≠ []) = ts.map Utf8.encode) : textsOf runs = ts := by
  rw [textsOf, h, List.map_map]
  apply (List.map_congr_left _).trans (List.map_id _)
  intro t _
  exact Utf8.decode_encode t

/-- The bytes of a line are parted into its pieces, and nothing is left open. -/
theorem exists_runs_encodeLine (t : Text) :
    ∃ runs, Parted isLineEnd (Utf8.encodeLine t) runs [] ∧
      runs.filter (· ≠ []) = (pieces t).map Utf8.encode := by
  obtain ⟨ls, u, h⟩ := exists_parted endsLine t
  have hopen : Parted isLineEnd (Utf8.encode u ++ [0x0A]) [Utf8.encode u] [] :=
    .piece (isLineEnd_of_encode h.tail_unmarked) rfl (.tail (by simp))
  refine ⟨_, (parted_encode h).append hopen, ?_⟩
  rw [pieces, h.splitOnP_eq, ← filter_map_encode, List.map_append]
  rfl

theorem exists_runs_encodeLines (ts : List Text) :
    ∃ runs, Parted isLineEnd (Utf8.encodeLines ts) runs [] ∧
      runs.filter (· ≠ []) = (ts.flatMap pieces).map Utf8.encode := by
  induction ts with
  | nil => exact ⟨[], .tail (by simp [Utf8.encodeLines]), rfl⟩
  | cons t ts ih =>
    obtain ⟨runs, hruns, htexts⟩ := exists_runs_encodeLine t
    obtain ⟨more, hmore, htexts'⟩ := ih
    refine ⟨runs ++ more, ?_, ?_⟩
    · rw [Utf8.encodeLines_cons]
      exact hruns.append hmore
    · rw [List.filter_append, htexts, htexts', List.flatMap_cons, List.map_append]

/-- What is carried out of a line, however it is cut and polled. -/
theorem play_encodeLine (t : Text) (b : Board) (stimuli : List Stimulus)
    (hfed : b.input ++ fed stimuli = Utf8.encodeLine t)
    (hcrash : (play (stimuli ++ [.poll]) b).crashes = []) :
    (play (stimuli ++ [.poll]) b).texts = pieces t := by
  obtain ⟨runs, hruns, htexts⟩ := exists_runs_encodeLine t
  rw [← textsOf_of_encode htexts]
  exact (play_of_parted hruns b stimuli hfed hcrash).1

/-! ## The pieces of a request -/

theorem pieces_of_sendable (t : Text) (h : Sendable t) : pieces t = [t] := by
  have hwhole : Parted endsLine t [] t := by
    apply Parted.tail
    intro c hc
    have hfeed : c ≠ '\n' := fun heq => h.lineFeed (heq ▸ hc)
    have hreturn : c ≠ '\r' := fun heq => h.carriageReturn (heq ▸ hc)
    simp [endsLine, hfeed, hreturn]
  rw [pieces, hwhole.splitOnP_eq]
  simp [h.ne_nil]

theorem sendable_of_mem_pieces {line t : Text} (ht : t ∈ pieces line) : Sendable t := by
  obtain ⟨ls, u, h⟩ := exists_parted endsLine line
  rw [pieces, h.splitOnP_eq] at ht
  obtain ⟨hmem, hne⟩ := List.mem_filter.mp ht
  have hplain : ∀ c ∈ t, endsLine c = false := by
    rcases List.mem_append.mp hmem with hmem | hmem
    · exact h.piece_unmarked t hmem
    · rw [List.mem_singleton.mp hmem]
      exact h.tail_unmarked
  obtain ⟨hfeed, hreturn⟩ := not_mem_of_endsLine hplain
  exact ⟨by simpa using hne, hfeed, hreturn⟩

/-- A beginning without line ends stays whole. -/
theorem pieces_append (start t : Text) (hne : start ≠ []) (hany : start.any endsLine = false) :
    ∃ more rest, pieces (start ++ t) = (start ++ more) :: rest := by
  have hstart : ∀ c ∈ start, endsLine c = false :=
    fun c hc => Bool.eq_false_iff.mpr (List.any_eq_false.mp hany c hc)
  obtain ⟨ls, u, h⟩ := exists_parted endsLine t
  cases h with
  | tail ht =>
    have hwhole : Parted endsLine (start ++ t) [] (start ++ t) :=
      .tail (List.forall_mem_append.mpr ⟨hstart, ht⟩)
    refine ⟨t, [], ?_⟩
    rw [pieces, hwhole.splitOnP_eq]
    simp [hne]
  | @piece l xs e ls _ hl he h =>
    have hfirst : Parted endsLine (start ++ l ++ e :: xs) ((start ++ l) :: ls) u :=
      .piece (List.forall_mem_append.mpr ⟨hstart, hl⟩) he h
    refine ⟨l, (ls ++ [u]).filter (· ≠ []), ?_⟩
    rw [pieces, ← List.append_assoc, hfirst.splitOnP_eq]
    simp [hne]

theorem verb?_ofText_connect (t : Text) :
    (Order.ofText ("CONNECT:".toList ++ t)).verb? = some .connect := by
  have htrim : trim ("CONNECT:".toList ++ t) = "CONNECT:".toList ++ trimEnd t :=
    trim_append_of_not_blank _ _ (by decide) (by decide)
  have hafter : after? (Verb.connect.word ++ [':']) ("CONNECT:".toList ++ trimEnd t) =
      some (trimEnd t) :=
    (after?_eq_some_iff _ _ _).mpr rfl
  simp only [Order.ofText, htrim, hafter, Order.ofConnect]
  cases cutFirst? ':' (trimEnd t) with
  | none => rfl
  | some parts => rfl

theorem verb?_ofText_tcpConnect (t : Text) :
    (Order.ofText ("TCPCONNECT:".toList ++ t)).verb? = some .tcpConnect := by
  have htrim : trim ("TCPCONNECT:".toList ++ t) = "TCPCONNECT:".toList ++ trimEnd t :=
    trim_append_of_not_blank _ _ (by decide) (by decide)
  obtain ⟨hconnect, hstatus, hscan, hdisconnect⟩ :=
    Order.not_wifi_of_head ("TCPCONNECT:".toList ++ trimEnd t) rfl
  have hafter : after? (Verb.tcpConnect.word ++ [':']) ("TCPCONNECT:".toList ++ trimEnd t) =
      some (trimEnd t) :=
    (after?_eq_some_iff _ _ _).mpr rfl
  simp only [Order.ofText, htrim, hconnect, hstatus, hscan, hdisconnect, if_false, hafter,
    Order.ofTcpConnect]
  cases cutLast? ':' (trimEnd t) with
  | none => rfl
  | some parts =>
    dsimp only
    split
    · rfl
    · rfl

/-- Of the pieces of a request the first has its verb. -/
theorem pieces_line (r : Request) (line : Text) (h : r.line? = some line) :
    ∃ first rest, pieces line = first :: rest ∧ (Order.ofText first).verb? = some r.verb := by
  cases r with
  | connect ssid password =>
    obtain rfl := Option.some.inj ((Request.line?_connect ssid password).symm.trans h)
    obtain ⟨more, rest, hpieces⟩ := pieces_append "CONNECT:".toList (ssid ++ ':' :: password)
      (by decide) (by decide)
    exact ⟨_, rest, hpieces, verb?_ofText_connect more⟩
  | tcpConnect host port =>
    rw [Request.line?_tcpConnect_eq] at h
    obtain ⟨number, _, rfl⟩ := Option.map_eq_some_iff.mp h
    obtain ⟨more, rest, hpieces⟩ := pieces_append "TCPCONNECT:".toList (host ++ ':' :: number)
      (by decide) (by decide)
    exact ⟨_, rest, hpieces, verb?_ofText_tcpConnect more⟩
  | tcpSend data =>
    obtain rfl := Option.some.inj ((Request.line?_tcpSend data).symm.trans h)
    obtain ⟨more, rest, hpieces⟩ := pieces_append "TCPSEND:".toList data (by decide) (by decide)
    refine ⟨_, rest, hpieces, ?_⟩
    rw [Order.ofText_tcpSend]
    rfl
  | status =>
    cases h
    exact ⟨Verb.status.word, [], by decide, by decide⟩
  | scan =>
    cases h
    exact ⟨Verb.scan.word, [], by decide, by decide⟩
  | disconnect =>
    cases h
    exact ⟨Verb.disconnect.word, [], by decide, by decide⟩
  | address =>
    cases h
    exact ⟨Verb.address.word, [], by decide, by decide⟩
  | tcpClose =>
    cases h
    exact ⟨Verb.tcpClose.word, [], by decide, by decide⟩

end StationLink.Board
