import Lumos.Audio.WavLoader

/-!
# The chunks that are looked at

While nothing has failed, a turn of the loop leads from one header to the next. A read that
fails for a header leaves the stream failed but not at its end, where the loop turns for ever.
-/
namespace Lumos.WavLoader

open Bytes Loop Relation

variable {long : ULong} {stale : Nat → Vector UInt8 4} {file bytes old : List UInt8} {stream : Stream}
  {s t : State} {p n : Nat} {q : Option Nat} {data : AudioData}

/-! ## Streams -/

theorem read_good (h : p + n ≤ file.length) :
    read file ⟨p, false, false⟩ n = (slice file p n, ⟨p + n, false, false⟩) := by
  have hlength := length_slice h
  simp [read, hlength]

theorem read_short (h : file.length < p + n) (hn : 0 < n) : ∃ pos,
    read file ⟨p, false, false⟩ n = (slice file p n, ⟨pos, true, true⟩) := by
  have hlength : (slice file p n).length < n := by
    refine Nat.lt_of_le_of_ne length_slice_le fun heq => ?_
    have hfits := length_slice_eq.mp heq
    omega
  exact ⟨p + (slice file p n).length, by simp [read, hlength]⟩

theorem read_bytes (file : List UInt8) (p n : Nat) : (read file ⟨p, false, false⟩ n).1 = slice file p n := by
  by_cases h : (slice file p n).length < n <;> simp [read, h]

theorem read_failed (h : stream.fail = true) (n : Nat) : read file stream n = ([], stream) := by
  obtain ⟨pos, eof, fail⟩ := stream
  cases h
  simp [read]

theorem overwrite_all (h : bytes.length = old.length) : overwrite bytes old = bytes := by
  rw [overwrite, List.drop_of_length_le (Nat.le_of_eq h.symm), List.append_nil]

theorem overwrite_nil : overwrite [] old = old := rfl

/-- Where zeros are written over, a name without a zero has been written in full. -/
theorem eq_of_overwrite_zeros {name : List UInt8} (h : overwrite bytes (List.replicate n 0) = name)
    (hname : 0 ∉ name) : bytes = name := by
  rw [overwrite, List.drop_replicate] at h
  cases hrest : n - bytes.length with
  | zero => rw [← h, hrest, List.replicate_zero, List.append_nil]
  | succ k =>
    rw [hrest, List.replicate_succ] at h
    exact absurd (h ▸ List.mem_append_right bytes List.mem_cons_self) hname

/-- A header in the file. -/
theorem loadWAVChunkInfo_good {chunk size : List UInt8} (h : p + 8 ≤ file.length) (hchunk : chunk.length = 4)
    (hsize : size.length = 4) : loadWAVChunkInfo file chunk ⟨p, false, false⟩ size =
      (slice file p 4, slice file (p + 4) 4, ⟨p + 8, false, false⟩) := by
  rw [loadWAVChunkInfo, read_good (by omega)]
  simp only
  rw [read_good (by omega), overwrite_all, overwrite_all]
  · rw [length_slice (by omega), hsize]
  · rw [length_slice (by omega), hchunk]

/-- A header that is cut off. -/
theorem loadWAVChunkInfo_short (h : file.length < p + 8) (chunk size : List UInt8) : ∃ size' pos,
    loadWAVChunkInfo file chunk ⟨p, false, false⟩ size =
      (overwrite (slice file p 4) chunk, size', ⟨pos, true, true⟩) := by
  by_cases hname : p + 4 ≤ file.length
  · obtain ⟨pos, hread⟩ := read_short (show file.length < p + 4 + 4 by omega) (by decide)
    rw [loadWAVChunkInfo, read_good hname]
    simp only
    rw [hread]
    exact ⟨_, pos, rfl⟩
  · obtain ⟨pos, hread⟩ := read_short (show file.length < p + 4 by omega) (by decide)
    rw [loadWAVChunkInfo, hread]
    simp only
    rw [read_failed rfl]
    exact ⟨_, pos, rfl⟩

/-! ## Turns of the loop -/

/-- Nothing has failed, and the header at `p` comes next. -/
structure At (long : ULong) (file : List UInt8) (p : Nat × Option Nat) (s : State) : Prop where
  stream : s.stream = ⟨p.1, false, false⟩
  chunkSize : s.chunkSize.length = 4
  data : s.data = formatAt long file p.2

/-- Nothing can be read, and the loop does not notice. -/
structure Stuck (s : State) : Prop where
  eof : s.stream.eof = false
  fail : s.stream.fail = true

theorem at_init : At long file (0, none) init := ⟨rfl, rfl, rfl⟩

theorem setFormat_formatAt (fmt : FmtChunk) :
    (formatAt long file q).setFormat fmt = AudioData.empty.setFormat fmt := by
  cases q <;> rfl

variable (stale) in
/-- A turn at a header in the file. -/
theorem body_good (hs : At long file (p, q) s) (h : p + 8 ≤ file.length) : body long stale file s =
    if slice file p 4 = riffName then some (.inl ⟨⟨p + 12, false, false⟩, slice file (p + 4) 4, s.data, s.calls + 1⟩)
    else if slice file p 4 = fmtName then
      let (bytes, stream) := read file ⟨p + 8, false, false⟩ long.fmtSize
      let fmt := FmtChunk.ofBytes long (overwrite bytes (List.replicate long.fmtSize 0))
      some (.inl ⟨stream, slice file (p + 4) 4, s.data.setFormat fmt, s.calls + 1⟩)
    else if slice file p 4 = dataName then
      let size := littleEndian (slice file (p + 4) 4)
      let (bytes, _) := read file ⟨p + 8, false, false⟩ size
      some (.inr { s.data with size := size, data := bytes })
    else some (.inl ⟨⟨p + 8 + littleEndian (slice file (p + 4) 4), false, false⟩, slice file (p + 4) 4, s.data,
      s.calls + 1⟩) := by
  rw [body, hs.stream, loadWAVChunkInfo_good h (Vector.length_toList ..) hs.chunkSize]
  rfl

variable (stale) in
/-- A turn that leads to the next header. -/
theorem turn_next {p p' : Nat × Option Nat} (hs : At long file p s) (h : Next long file p p') :
    ∃ t, Turn (body long stale file) s t ∧ At long file p' t := by
  cases h with
  | riff name inside =>
    refine ⟨_, (body_good stale hs inside).trans (if_pos name), rfl, length_slice (by omega), hs.data⟩
  | @fmt p q name inside =>
    have hsize : (slice file (p + 8) long.fmtSize).length = (List.replicate long.fmtSize (0 : UInt8)).length := by
      rw [length_slice inside, List.length_replicate]
    have hdata : s.data.setFormat (.ofBytes long (slice file (p + 8) long.fmtSize)) =
        formatAt long file (some (p + 8)) := by
      rw [hs.data, setFormat_formatAt]
      rfl
    have hturn := body_good stale hs (Nat.le_trans (Nat.le_add_right _ _) inside)
    rw [if_neg (by rw [name]; decide), if_pos name, read_good inside] at hturn
    simp only at hturn
    rw [overwrite_all hsize] at hturn
    exact ⟨_, hturn, rfl, length_slice (by omega), hdata⟩
  | other name inside =>
    have hturn := body_good stale hs inside
    rw [if_neg name.1, if_neg name.2.1, if_neg name.2.2] at hturn
    exact ⟨_, hturn, rfl, length_slice (by omega), hs.data⟩

variable (stale) in
/-- A turn at a header that is cut off. -/
theorem body_short (hs : At long file (p, q) s) (h : file.length < p + 8) : ∃ size pos, body long stale file s =
    let chunkName := overwrite (slice file p 4) (stale s.calls).toList
    if chunkName = riffName then some (.inl ⟨⟨pos, false, true⟩, size, s.data, s.calls + 1⟩)
    else if chunkName = fmtName then
      some (.inl ⟨⟨pos, true, true⟩, size, s.data.setFormat (.ofBytes long (List.replicate long.fmtSize 0)),
        s.calls + 1⟩)
    else if chunkName = dataName then some (.inr { s.data with size := littleEndian size, data := [] })
    else some (.inl ⟨⟨pos, false, true⟩, size, s.data, s.calls + 1⟩) := by
  obtain ⟨size, pos, hinfo⟩ := loadWAVChunkInfo_short h (stale s.calls).toList s.chunkSize
  refine ⟨size, pos, ?_⟩
  rw [body, hs.stream, hinfo]
  rfl

/-- The name of a header is in the file, even if its size is not. -/
theorem overwrite_name (h : (slice file p 4).length = 4) (i : Nat) :
    overwrite (slice file p 4) (stale i).toList = slice file p 4 :=
  overwrite_all (h.trans (Vector.length_toList ..).symm)

variable (stale) in
/-- What the loop leaves with at a data chunk. -/
theorem leave_data (hs : At long file (p, q) s) (hname : slice file p 4 = dataName) :
    ∃ data, body long stale file s = some (.inr data) ∧ (p + 8 ≤ file.length →
      data = { formatAt long file q with
        size := littleEndian (slice file (p + 4) 4)
        data := slice file (p + 8) (littleEndian (slice file (p + 4) 4)) }) := by
  by_cases h : p + 8 ≤ file.length
  · have hleave := body_good stale hs h
    have hbytes := read_bytes file (p + 8) (littleEndian (slice file (p + 4) 4))
    rw [if_neg (by rw [hname]; decide), if_neg (by rw [hname]; decide), if_pos hname] at hleave
    have hresult : body long stale file s = some (.inr { s.data with
        size := littleEndian (slice file (p + 4) 4)
        data := (read file ⟨p + 8, false, false⟩ (littleEndian (slice file (p + 4) 4))).1 }) := hleave
    rw [hbytes, hs.data] at hresult
    exact ⟨_, hresult, fun _ => rfl⟩
  · obtain ⟨size, pos, hleave⟩ := body_short stale hs (by omega)
    simp only at hleave
    rw [overwrite_name (by rw [hname]; rfl), if_neg (by rw [hname]; decide), if_neg (by rw [hname]; decide),
      if_pos hname] at hleave
    exact ⟨_, hleave, fun hinside => absurd hinside h⟩

variable (stale) in
/-- After a format that is cut off the loop ends. -/
theorem leave_fmt (hs : At long file (p, q) s) (hname : slice file p 4 = fmtName)
    (hcut : file.length < p + 8 + long.fmtSize) :
    ∃ t, Turn (body long stale file) s t ∧ ∃ data, body long stale file t = some (.inr data) ∧ data.size = 0 := by
  have hsize : s.data.size = 0 := by
    rw [hs.data]
    cases q <;> rfl
  have hpos : 0 < long.fmtSize := by cases long <;> decide
  by_cases h : p + 8 ≤ file.length
  · have hturn := body_good stale hs h
    obtain ⟨pos, hread⟩ := read_short hcut hpos
    rw [if_neg (by rw [hname]; decide), if_pos hname, hread] at hturn
    exact ⟨_, hturn, _, rfl, hsize⟩
  · obtain ⟨size, pos, hturn⟩ := body_short stale hs (by omega)
    simp only at hturn
    rw [overwrite_name (by rw [hname]; rfl), if_neg (by rw [hname]; decide), if_pos hname] at hturn
    exact ⟨_, hturn, _, rfl, hsize⟩

theorem turn_stuck (hstale : ∀ i, (stale i).toList = List.replicate 4 0) (hs : Stuck s) :
    ∃ t, Turn (body long stale file) s t ∧ Stuck t := by
  have hinfo : loadWAVChunkInfo file (stale s.calls).toList s.stream s.chunkSize =
      (List.replicate 4 0, s.chunkSize, s.stream) := by
    rw [loadWAVChunkInfo, read_failed hs.fail, hstale]
    simp only
    rw [read_failed hs.fail, overwrite_nil, overwrite_nil]
  have hturn : body long stale file s = some (.inl ⟨seekg s.stream (littleEndian s.chunkSize), s.chunkSize, s.data,
      s.calls + 1⟩) := by
    rw [body, if_neg (by rw [hs.eof]; decide), hinfo]
    rfl
  refine ⟨_, hturn, ?_, ?_⟩
  · rw [seekg, if_pos hs.fail]
  · rw [seekg, if_pos hs.fail]
    exact hs.fail

/-- A header that is cut off, where the array holds zeros. -/
theorem turn_short (hstale : ∀ i, (stale i).toList = List.replicate 4 0) (hs : At long file (p, q) s)
    (hshort : file.length < p + 8) (hstops : ¬Stops long file p) :
    ∃ t, Turn (body long stale file) s t ∧ Stuck t := by
  obtain ⟨size, pos, hturn⟩ := body_short stale hs hshort
  simp only [hstale] at hturn
  have hfmt : overwrite (slice file p 4) (List.replicate 4 0) ≠ fmtName := fun h =>
    hstops (.inr ⟨eq_of_overwrite_zeros h (by decide), by omega⟩)
  have hdata : overwrite (slice file p 4) (List.replicate 4 0) ≠ dataName := fun h =>
    hstops (.inl (eq_of_overwrite_zeros h (by decide)))
  rw [if_neg hfmt, if_neg hdata, ite_self] at hturn
  exact ⟨_, hturn, rfl, rfl⟩

/-- Unless the loop stops at a header, it goes on to the next or is stuck. -/
theorem turn_at (hstale : ∀ i, (stale i).toList = List.replicate 4 0) (hs : At long file (p, q) s)
    (hstops : ¬Stops long file p) : ∃ t, Turn (body long stale file) s t ∧
      (Stuck t ∨ ∃ p', Next long file (p, q) p' ∧ At long file p' t) := by
  obtain ⟨hdata, hfmt⟩ := not_or.mp hstops
  by_cases h : p + 8 ≤ file.length
  · have hnext : ∃ p', Next long file (p, q) p' := by
      by_cases hriffName : slice file p 4 = riffName
      · exact ⟨_, .riff hriffName h⟩
      · by_cases hfmtName : slice file p 4 = fmtName
        · exact ⟨_, .fmt hfmtName (by
            by_contra hcut
            exact hfmt ⟨hfmtName, by omega⟩)⟩
        · exact ⟨_, .other ⟨hriffName, hfmtName, hdata⟩ h⟩
    obtain ⟨p', hp'⟩ := hnext
    obtain ⟨t, hturn, ht⟩ := turn_next stale hs hp'
    exact ⟨t, hturn, .inr ⟨p', hp', ht⟩⟩
  · obtain ⟨t, hturn, ht⟩ := turn_short hstale hs (by omega) hstops
    exact ⟨t, hturn, .inl ht⟩

variable (stale) in
/-- The loop goes along the walk. -/
theorem returns_walk {p : Nat × Option Nat} (h : Walk long file p) : ∃ t, At long file p t ∧
    ∀ data, LoadsAs long stale file data ↔ Returns (body long stale file) t data := by
  induction h with
  | refl => exact ⟨init, at_init, fun data => Iff.rfl⟩
  | tail _ hnext ih =>
    obtain ⟨s, hs, hreturns⟩ := ih
    obtain ⟨t, hturn, ht⟩ := turn_next stale hs hnext
    exact ⟨t, ht, fun data => (hreturns data).trans (returns_turn_iff hturn)⟩

/-! ## When loading ends -/

/-- The call ends, whatever the array holds, just when the walk stops. -/
theorem ends_iff : (∀ stale, ∃ data, LoadsAs long stale file data) ↔
    ∃ p q, Walk long file (p, q) ∧ Stops long file p := by
  constructor
  · intro h
    by_contra hnot
    obtain ⟨data, hdata⟩ := h fun _ => Vector.replicate 4 0
    refine not_returns (fun s => Stuck s ∨ ∃ p, Walk long file p ∧ At long file p s) ?_ (.inr ⟨_, .refl, at_init⟩)
      data hdata
    have hstale : ∀ _ : Nat, (Vector.replicate 4 (0 : UInt8)).toList = List.replicate 4 0 := fun _ => rfl
    rintro s (hs | ⟨⟨p, q⟩, hwalk, hs⟩)
    · obtain ⟨t, hturn, ht⟩ := turn_stuck hstale hs
      exact ⟨t, hturn, .inl ht⟩
    · obtain ⟨t, hturn, ht | ⟨p', hnext, ht⟩⟩ := turn_at hstale hs fun hstops => hnot ⟨p, q, hwalk, hstops⟩
      · exact ⟨t, hturn, .inl ht⟩
      · exact ⟨t, hturn, .inr ⟨p', hwalk.tail hnext, ht⟩⟩
  · rintro ⟨p, q, hwalk, hstops⟩ stale
    obtain ⟨t, ht, hreturns⟩ := returns_walk stale hwalk
    obtain hname | ⟨hname, hcut⟩ := hstops
    · obtain ⟨data, hleave, -⟩ := leave_data stale ht hname
      exact ⟨data, (hreturns data).mpr (returns_of_leave hleave)⟩
    · obtain ⟨u, hturn, data, hleave, -⟩ := leave_fmt stale ht hname hcut
      exact ⟨data, (hreturns data).mpr ((returns_turn_iff hturn).mpr (returns_of_leave hleave))⟩

end Lumos.WavLoader
