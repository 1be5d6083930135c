import SpeedyCgi.Request.Decode

/-!
The wire format of a request, and that both ends follow it.

`Writes m w`: as long as the total stays below `2 ^ 30` bytes, the encoder step `m` appends exactly
`w`, without a fault. The format itself is `requestBytes`; it says nothing about buffers.
-/

namespace SpeedyCgi.Request

open Lib.Codec Lib.CString Lib.Wp

variable (abi : Abi)

def nonempty (l : List CStr) : List Bytes := (l.filter (!·.isEmpty)).map bytes

def strBytes (s : Bytes) : Bytes :=
  (if s.length ≥ maxShortStr then
    UInt8.ofNat maxShortStr :: abi.int.put (BitVec.ofNat 32 s.length)
  else [UInt8.ofNat s.length]) ++ s

def stringsBytes (l : List CStr) : Bytes := (nonempty l).flatMap (strBytes abi) ++ [0]

def devinoBytes (x : SpeedyDevIno) : Bytes := abi.devIno.put (x.i, x.d)

def cwdBytes (r : FeRequest) : Bytes :=
  if r.scriptHasCwd then [speedyCwdInScript]
  else match r.dirStat with
    | some x => speedyCwdDevino :: devinoBytes abi x
    | none => [speedyCwdUnknown]

def requestBytes (r : FeRequest) (fname : CStr) : Bytes :=
  stringsBytes abi r.envp ++ (stringsBytes abi r.scrArgv.tail ++ (strBytes abi (bytes fname) ++
    (devinoBytes abi r.script ++ cwdBytes abi r)))

/-! ### The encoder -/

/-- There is room for all that is still to be written, also in an `int`. -/
def maxTotal : ℕ := 2 ^ 30

def Writes (m : Enc Unit) (w : Bytes) : Prop :=
  ∀ b : SpeedyBuf, b.len + w.length < maxTotal → b.alloced ≤ intMax →
    wp (fun _ => False) m (fun _ b' => b'.buf = b.buf ++ w ∧ b'.alloced ≤ intMax) b

lemma Writes.seq {m m' : Enc Unit} {w w' : Bytes} (h : Writes m w) (h' : Writes m' w') :
    Writes (do m; m') (w ++ w') := by
  intro b hb hA
  simp only [List.length_append] at hb
  refine wp_bind _ _ _ _ |>.mpr (wp_mono (h b (by omega) hA) ?_)
  rintro - b₁ ⟨he, hA⟩
  refine wp_mono (h' b₁ ?_ hA) ?_
  · simp only [SpeedyBuf.len, he, List.length_append] at hb ⊢
    omega
  · rintro - b₂ ⟨he₂, hA₂⟩
    exact ⟨by rw [he₂, he, List.append_assoc], hA₂⟩

lemma wp_bufEnlarge {b : SpeedyBuf} {l : ℕ} (hl : b.len + l < maxTotal) (hA : b.alloced ≤ intMax) :
    wp (fun _ => False) (bufEnlarge l)
      (fun _ b' => b'.buf = b.buf ∧ b.len + l ≤ b'.alloced ∧ b'.alloced ≤ intMax) b := by
  simp only [maxTotal, intMax] at hl hA
  have h1 : ¬ b.len + l > intMax := by simp only [intMax]; omega
  simp only [bufEnlarge, wp_bind, wp_get, wp_ite, h1, if_false]
  split
  · have h2 : ¬ (b.alloced * speedyReallocMult > intMax ∨ b.len + l > intMax) := by
      simp only [speedyReallocMult, intMax]; omega
    simp only [enlargeBuf, wp_bind, wp_get, wp_ite, h2, if_false]
    refine ⟨rfl, Nat.le_max_right _ _, ?_⟩
    simp only [speedyReallocMult, intMax]
    omega
  · exact ⟨rfl, by omega, hA⟩

lemma wp_add2 {b : SpeedyBuf} {s : Bytes} (hs : b.len + s.length ≤ b.alloced) :
    wp (fun _ => False) (add2 s) (fun _ b' => b'.buf = b.buf ++ s ∧ b'.alloced = b.alloced) b := by
  have h : (b.buf ++ s).length ≤ b.alloced := by simpa [SpeedyBuf.len] using hs
  simp only [add2, wp_bind, wp_get, dif_pos h]
  exact ⟨rfl, rfl⟩

lemma writes_add (s : Bytes) : Writes (add s) s := by
  intro b hb hA
  refine wp_bind _ _ _ _ |>.mpr (wp_mono (wp_bufEnlarge hb hA) ?_)
  rintro - b₁ ⟨he, hroom, hA₁⟩
  refine wp_mono (wp_add2 (by simpa [SpeedyBuf.len, he] using hroom)) ?_
  rintro - b₂ ⟨he₂, hA₂⟩
  exact ⟨by rw [he₂, he], hA₂ ▸ hA₁⟩

lemma writes_addChar (c : UInt8) : Writes (addChar c) [c] := writes_add [c]

/-- The escape byte and the length go into the room made for both. -/
lemma writes_header (n : BitVec 32) :
    Writes (do
      bufEnlarge (abi.int.size + 1)
      addChar2 (UInt8.ofNat maxShortStr)
      add2 (abi.int.put n)) (UInt8.ofNat maxShortStr :: abi.int.put n) := by
  intro b hb hA
  simp only [List.length_cons, Rep.length_put] at hb
  refine wp_bind _ _ _ _ |>.mpr (wp_mono (wp_bufEnlarge hb hA) ?_)
  rintro - b₁ ⟨he, hroom, hA₁⟩
  have hlen : b₁.len = b.len := by simp [SpeedyBuf.len, he]
  refine wp_bind _ _ _ _ |>.mpr (wp_mono (wp_add2 (by simp only [List.length_singleton]; omega)) ?_)
  rintro - b₂ ⟨he₂, hA₂⟩
  have hlen₂ : b₂.len = b.len + 1 := by simp [SpeedyBuf.len, he₂, he]
  refine wp_mono (wp_add2 (by rw [Rep.length_put]; omega)) ?_
  rintro - b₃ ⟨he₃, hA₃⟩
  exact ⟨by simp [he₃, he₂, he], by omega⟩

lemma writes_addString (s : Bytes) : Writes (addString abi s) (strBytes abi s) := by
  refine Writes.seq ?_ (writes_add s)
  unfold addStringLen
  split
  · exact writes_header abi _
  · exact writes_addChar _

lemma writes_addDevino (x : SpeedyDevIno) : Writes (addDevino abi x) (devinoBytes abi x) :=
  writes_add _

lemma writes_addStrings (l : List CStr) : Writes (addStrings abi l) (stringsBytes abi l) := by
  induction l with
  | nil => exact writes_addChar 0
  | cons s l ih =>
    by_cases hs : s = []
    · simpa [addStrings, stringsBytes, nonempty, hs] using ih
    · have hlen : s.length ≠ 0 := by simpa using hs
      have hne : stringsBytes abi (s :: l) = strBytes abi (bytes s) ++ stringsBytes abi l := by
        simp [stringsBytes, nonempty, hs]
      rw [hne]
      simp only [addStrings, if_pos hlen]
      exact (writes_addString abi (bytes s)).seq ih

lemma writes_addCwd (r : FeRequest) : Writes (addCwd abi r) (cwdBytes abi r) := by
  unfold addCwd cwdBytes
  split
  · exact writes_addChar _
  · cases r.dirStat with
    | some x => exact (writes_addChar _).seq (writes_addDevino abi x)
    | none => exact writes_addChar _

lemma writes_addRequest (r : FeRequest) (fname : CStr) :
    Writes (addRequest abi r fname) (requestBytes abi r fname) :=
  (writes_addStrings abi r.envp).seq <| (writes_addStrings abi r.scrArgv.tail).seq <|
    (writes_addString abi (bytes fname)).seq <|
      (writes_addDevino abi r.script).seq (writes_addCwd abi r)

/-- What an encoder step leaves in a fresh buffer. -/
lemma Writes.fresh {m : Enc Unit} {w : Bytes} (h : Writes m w) (hw : w.length < maxTotal) {n : ℕ}
    (hn : n ≤ intMax) : ∃ b, Prod.snd <$> m (allocBuf n) = .ok b ∧ b.buf = w := by
  have hwp := h (allocBuf n) (by simpa [allocBuf, SpeedyBuf.len] using hw) hn
  unfold wp at hwp
  split at hwp
  next u b hm => exact ⟨b, by rw [hm]; rfl, by simpa [allocBuf] using hwp.1⟩
  next => exact hwp.elim

lemma mkenv_bytes {r : FeRequest} {fname : CStr} (hf : r.scriptFname = some fname)
    (hsize : (requestBytes abi r fname).length < maxTotal) (minAlloc : BitVec 32) :
    ∃ b, speedyFrontendMkenv abi r minAlloc = .ok b ∧ b.buf = requestBytes abi r fname := by
  have hn : (max 512 minAlloc.toInt).toNat ≤ intMax := by
    have := BitVec.toInt_lt (x := minAlloc)
    simp only [intMax]
    omega
  simp only [speedyFrontendMkenv, hf]
  exact (writes_addRequest abi r fname).fresh hsize hn

lemma proto2Buf_bytes (cwd : Option CStr)
    (hsize : (strBytes abi (bytes (cwd.getD []))).length < maxTotal) :
    ∃ b, proto2Buf abi cwd = .ok b ∧ b.buf = strBytes abi (bytes (cwd.getD [])) := by
  have hlen : ∀ s : Bytes, (strBytes abi s).length = strBufsize abi s.length := by
    intro s
    unfold strBytes strBufsize
    split <;> simp <;> omega
  cases cwd with
  | some s =>
    refine (writes_addString abi (bytes s)).fresh hsize ?_
    simp only [maxTotal, intMax, Option.getD_some, hlen, length_bytes] at hsize ⊢
    omega
  | none =>
    refine (writes_addString abi []).fresh hsize ?_
    simp only [maxTotal, intMax, Option.getD_none, hlen, length_bytes, List.length_nil] at hsize ⊢
    omega

/-! ### The decoder -/

lemma yields_getString_nil : Yields (getString abi) [0] none := fun _ => rfl

lemma yields_readString (s : Bytes) : Yields (readString s.length) s s := by
  have h : ¬ (s.length : Int) < 0 := by omega
  simpa [readString, h] using yields_items ReadError.short s

lemma yields_getString {s : Bytes} (hs : s ≠ []) (hlen : s.length < maxTotal) :
    Yields (getString abi) (strBytes abi s) (some s) := by
  have hpos := List.length_pos_iff.mpr hs
  simp only [maxTotal] at hlen
  unfold strBytes
  split
  next h =>
    -- the length of a long string is sent as an `int`
    have hint : (BitVec.ofNat 32 s.length).toInt = s.length := by
      rw [BitVec.toInt_eq_toNat_of_lt (by simp only [BitVec.toNat_ofNat]; omega), BitVec.toNat_ofNat,
        Nat.mod_eq_of_lt (by omega)]
    have hbody := (abi.int.yields_read ReadError.short (BitVec.ofNat 32 s.length)).bind
      (k := fun sz => some <$> readString sz.toInt) (by rw [hint]; exact (yields_readString s).map some)
    exact (yields_next _).bind hbody
  next h =>
    -- a short length is neither the end of the list nor the escape
    have hn : (UInt8.ofNat s.length).toNat = s.length := by
      simp only [maxShortStr] at h
      simp only [UInt8.toNat_ofNat']
      omega
    have h0 : UInt8.ofNat s.length ≠ 0 := by
      intro h0
      rw [h0] at hn
      simp at hn
      omega
    refine (yields_next _).bind ?_
    have h255 : s.length ≠ maxShortStr := by omega
    simp only [if_neg h0, hn, if_neg h255]
    exact (yields_readString s).map some

lemma strBytes_ne_nil (s : Bytes) : strBytes abi s ≠ [] := by
  unfold strBytes
  split <;> simp

lemma yields_strings {l : List CStr} (hl : (stringsBytes abi l).length < maxTotal) :
    Yields (collectAll .protocolError (getString abi)) (stringsBytes abi l) (nonempty l) := by
  refine yields_collectAll (yields_getString_nil abi) ?_ fun s _ => strBytes_ne_nil abi s
  intro s hs
  have hne : s ≠ [] := by
    obtain ⟨t, ht, rfl⟩ := List.mem_map.mp hs
    simpa using (List.mem_filter.mp ht).2
  refine yields_getString abi hne ?_
  have hle : (strBytes abi s).length ≤ ((nonempty l).flatMap (strBytes abi)).length :=
    (List.sublist_flatten_of_mem (List.mem_map_of_mem hs)).length_le
  simp only [stringsBytes, strBytes, List.length_append] at hl hle
  omega

lemma yields_devino (x : SpeedyDevIno) : Yields (devinoGet abi) (devinoBytes abi x) x :=
  (abi.devIno.yields_read ReadError.short (x.i, x.d)).map _

/-- How the frontend says where the cwd is, and the identity it gives with that. -/
def cwdPassed (r : FeRequest) : UInt8 × Option SpeedyDevIno :=
  if r.scriptHasCwd then (speedyCwdInScript, none)
  else match r.dirStat with
    | some x => (speedyCwdDevino, some x)
    | none => (speedyCwdUnknown, none)

/-- What the backend is to know of a request. -/
def received (r : FeRequest) (fname : CStr) : BeRequest where
  env := nonempty r.envp
  argv := nonempty r.scrArgv.tail
  scrPath := some (bytes fname)
  feScr := r.script
  cwdWhere := some (cwdPassed r).1
  feCwd := (cwdPassed r).2

lemma yields_onerun {r : FeRequest} {fname : CStr} (hf : fname ≠ [])
    (hsize : (requestBytes abi r fname).length < maxTotal) :
    Yields (onerun abi) (requestBytes abi r fname) (received r fname) := by
  simp only [requestBytes, List.length_append] at hsize
  have hlen : (bytes fname).length < maxTotal := by
    have : (bytes fname).length ≤ (strBytes abi (bytes fname)).length := by simp [strBytes]
    omega
  refine (yields_strings abi (by omega)).bind ?_
  refine (yields_strings abi (by omega)).bind ?_
  refine (yields_getString abi (mt bytes_eq_nil.mp hf) hlen).bind ?_
  refine (yields_devino abi r.script).bind ?_
  unfold cwdBytes received cwdPassed
  split
  next => exact (yields_next _).bind (Yields.pure _)
  next =>
    cases r.dirStat with
    | some x => exact (yields_next _).bind ((yields_devino abi x).bind_pure _)
    | none => exact (yields_next _).bind (Yields.pure _)

/-! ### The reply with the cwd -/

/-- Writes that do not fail and take enough altogether send everything. -/
lemma sendLoop_eq {ns : List (Option ℕ)} {bp : Bytes} (hok : none ∉ ns)
    (hsum : bp.length ≤ (ns.map fun n => n.getD 0).sum) (hne : bp ≠ []) : sendLoop ns bp = bp := by
  induction ns generalizing bp with
  | nil => simp [hne] at hsum
  | cons n ns ih =>
    obtain ⟨n, rfl⟩ : ∃ m, n = some m := Option.ne_none_iff_exists'.mp fun h => hok (by simp [h])
    simp only [sendLoop]
    split
    next h =>
      have hdrop : bp.drop n = [] := by simpa using h
      rw [List.append_nil, List.take_of_length_le (List.drop_eq_nil_iff.mp hdrop)]
    next h =>
      have hdrop : bp.drop n ≠ [] := by simpa using h
      rw [ih (fun hm => hok (List.mem_cons_of_mem _ hm)) ?_ hdrop, List.take_append_drop]
      simp only [List.map_cons, Option.getD_some, List.sum_cons, List.length_drop] at hsum ⊢
      omega

lemma proto2_getString (cwd : Option CStr)
    (hsize : (strBytes abi (bytes (cwd.getD []))).length < maxTotal) {firstByte : UInt8}
    (hfirst : firstByte ≠ 0) {writes : List (Option ℕ)} (hok : none ∉ writes)
    (hsum : (strBytes abi (bytes (cwd.getD []))).length ≤
      (writes.map fun n => n.getD 0).sum) :
    ∃ sent, speedyFrontendProto2 abi firstByte cwd writes = .ok sent ∧
      Yields (getString abi) sent ((cwd.filter (!·.isEmpty)).map bytes) := by
  obtain ⟨b, hb, hbuf⟩ := proto2Buf_bytes abi cwd hsize
  have hsent : sendLoop writes b.buf = b.buf := by
    rw [hbuf]
    exact sendLoop_eq hok hsum (strBytes_ne_nil abi _)
  refine ⟨b.buf, by simp only [speedyFrontendProto2, if_neg hfirst, hb, Functor.map, Except.map,
    hsent], ?_⟩
  rw [hbuf] at *
  by_cases he : cwd.getD [] = []
  · have hnone : cwd.filter (!·.isEmpty) = none := by cases cwd <;> simp_all
    rw [hnone, he]
    exact yields_getString_nil abi
  · have hsome : cwd.filter (!·.isEmpty) = some (cwd.getD []) := by cases cwd <;> simp_all
    rw [hsome]
    refine yields_getString abi (mt bytes_eq_nil.mp he) ?_
    have : (bytes (cwd.getD [])).length ≤
      (strBytes abi (bytes (cwd.getD []))).length := by simp [strBytes]
    omega

/-- Both halves of the protocol. The buffer of a request is built without a write past its end, the
backend takes exactly its bytes from the stream and gets back what was put in; and of the bytes of
the reply `get_string` makes the cwd. -/
theorem request_framing (r : FeRequest) (fname : CStr) (hf : r.scriptFname = some fname)
    (hne : fname ≠ []) (hsize : (requestBytes abi r fname).length < maxTotal)
    (minAlloc : BitVec 32) :
    (∃ b, speedyFrontendMkenv abi r minAlloc = .ok b ∧
      ∀ stream, onerun abi (b.buf ++ stream) = .ok (received r fname, stream)) ∧
    ∀ (cwd : Option CStr) (firstByte : UInt8) (writes : List (Option ℕ)), firstByte ≠ 0 →
      (strBytes abi (bytes (cwd.getD []))).length < maxTotal → none ∉ writes →
      (strBytes abi (bytes (cwd.getD []))).length ≤ (writes.map fun n => n.getD 0).sum →
      ∃ sent, speedyFrontendProto2 abi firstByte cwd writes = .ok sent ∧ ∀ rest,
        getString abi (sent ++ rest) = .ok ((cwd.filter (!·.isEmpty)).map bytes, rest) := by
  refine ⟨?_, fun cwd firstByte writes hfirst hcwd hok hsum =>
    proto2_getString abi cwd hcwd hfirst hok hsum⟩
  obtain ⟨b, hb, hbuf⟩ := mkenv_bytes abi hf hsize minAlloc
  exact ⟨b, hb, hbuf ▸ yields_onerun abi hne hsize⟩

/-- A string of `n` letters. -/
def letters (n : ℕ) : CStr := List.replicate n (ch 'A')

/-- Strings on both sides of the escape, and empty ones. -/
def sampleRequest : FeRequest where
  envp := [letters 254, letters 0, letters 255, letters 256]
  scrArgv := [letters 3, letters 0, letters 300]
  scriptFname := some (letters 3)
  script := ⟨5, 6⟩
  scriptHasCwd := false
  dirStat := some ⟨7, 8⟩

theorem request_framing_sample :
    (∃ b, speedyFrontendMkenv .littleEndian sampleRequest 0 = .ok b ∧ ∀ stream,
      onerun .littleEndian (b.buf ++ stream) = .ok (received sampleRequest (letters 3), stream)) ∧
    ∃ sent, speedyFrontendProto2 .littleEndian 1 (some (letters 255)) [some 0, some 100, some 200] =
      .ok sent ∧ ∀ rest, getString .littleEndian (sent ++ rest) =
        .ok (((some (letters 255)).filter (!·.isEmpty)).map bytes, rest) :=
  have h := request_framing .littleEndian sampleRequest (letters 3) rfl (by decide)
    (by decide +kernel) 0
  ⟨h.1, h.2 (some (letters 255)) 1 [some 0, some 100, some 200] (by decide) (by decide +kernel)
    (by decide) (by decide +kernel)⟩

end SpeedyCgi.Request
