import Lumos.Audio.WavWalk

/-!
# Which files are loaded

A file is loaded, whatever its data, just when the headers that are looked at lead from the
first chunk to the data chunk. Two files with a byte of data each, zero and one, tell a data
chunk from what is taken for one.
-/
namespace Lumos.WavLoader

open Bytes Loop Relation

variable {long : ULong} {stale : Nat → Vector UInt8 4} {file more data rest : List UInt8} {head : Head}
  {s t : State} {p q p' : Nat × Option Nat} {b : UInt8}

/-! ## Parts of a file -/

theorem next_append (h : Next long file p q) : Next long (file ++ more) p q := by
  have hlength : file.length ≤ (file ++ more).length := by
    rw [List.length_append]
    omega
  cases h with
  | riff name inside =>
    rw [← slice_append_left (by omega)] at name
    exact .riff name (by omega)
  | fmt name inside =>
    rw [← slice_append_left (by omega)] at name
    exact .fmt name (by omega)
  | other name inside =>
    rw [← slice_append_left (by omega)] at name
    rw [← slice_append_left (by omega)]
    exact .other name (by omega)

/-- A step within the first part is one of that part. -/
theorem next_of_append (h : Next long (file ++ more) p q) (hq : q.1 ≤ file.length) : Next long file p q := by
  cases h with
  | riff name inside =>
    have hp : _ + 12 ≤ file.length := hq
    rw [slice_append_left (by omega)] at name
    exact .riff name (by omega)
  | fmt name inside =>
    have hp : _ + 8 + long.fmtSize ≤ file.length := hq
    rw [slice_append_left (by omega)] at name
    exact .fmt name hp
  | @other p q name inside =>
    have hp : p + 8 + littleEndian (slice (file ++ more) (p + 4) 4) ≤ file.length := hq
    rw [slice_append_left (by omega)] at name
    rw [slice_append_left (by omega)]
    exact .other name (by omega)

theorem le_of_next (h : Next long file p q) : p.1 + 8 ≤ q.1 := by
  cases h with
  | riff name inside => exact Nat.add_le_add_left (by decide) _
  | fmt name inside => exact Nat.le_add_right _ _
  | other name inside => exact Nat.le_add_right _ _

variable (more) in
theorem walk_append (h : Walk long file p) : Walk long (file ++ more) p :=
  ReflTransGen.mono (fun _ _ => next_append) _ _ h

theorem formatAt_append (h : Walk long file p) : formatAt long (file ++ more) p.2 = formatAt long file p.2 := by
  have hinside : ∀ q, p.2 = some q → q + long.fmtSize ≤ file.length := by
    induction h with
    | refl => exact fun q hq => absurd hq (Option.some_ne_none q).symm
    | tail _ hnext ih =>
      cases hnext with
      | riff name inside => exact ih
      | fmt name inside =>
        intro q hq
        cases hq
        exact inside
      | other name inside => exact ih
  obtain ⟨p, q⟩ := p
  cases q with
  | none => rfl
  | some q =>
    have hslice : slice (file ++ more) q long.fmtSize = slice file q long.fmtSize := slice_append_left (hinside q rfl)
    simp only [formatAt, hslice]

/-- The header of the data chunk, and the data. -/
theorem contents_header (head : Head) (data rest : List UInt8) :
    head.bytes.length + 8 + data.length ≤ (head.contents data rest).length ∧
      slice (head.contents data rest) head.bytes.length 4 = dataName ∧
      slice (head.contents data rest) (head.bytes.length + 4) 4 = toBytes 4 data.length ∧
      slice (head.contents data rest) (head.bytes.length + 8) data.length = data := by
  have hname : dataName.length = 4 := rfl
  have hsize : (toBytes 4 data.length).length = 4 := length_toBytes 4 _
  have hcontents : head.contents data rest =
      head.bytes ++ (dataName ++ (toBytes 4 data.length ++ (data ++ rest))) := by
    simp [Head.contents]
  have hcontents' : head.contents data rest =
      (head.bytes ++ dataName) ++ (toBytes 4 data.length ++ (data ++ rest)) := by
    simp [Head.contents]
  have hcontents'' : head.contents data rest =
      (head.bytes ++ dataName ++ toBytes 4 data.length) ++ (data ++ rest) := by
    simp [Head.contents]
  refine ⟨?_, ?_, ?_, ?_⟩
  · rw [hcontents]
    simp only [List.length_append, hname, hsize]
    omega
  · rw [hcontents]
    exact slice_middle _ dataName _
  · have hmiddle := slice_middle (head.bytes ++ dataName) (toBytes 4 data.length) (data ++ rest)
    rw [List.length_append, hname, hsize] at hmiddle
    rw [hcontents', hmiddle]
  · have hmiddle := slice_middle (head.bytes ++ dataName ++ toBytes 4 data.length) data rest
    rw [List.length_append, List.length_append, hname, hsize, Nat.add_assoc] at hmiddle
    rw [hcontents'', hmiddle]

/-! ## Files that are loaded -/

variable (stale) in
/-- What the loop leaves with at the data chunk. -/
theorem leave_contents (hdata : data.length < 2 ^ 32) {q : Option Nat}
    (hwalk : Walk long head.bytes (head.bytes.length, q))
    (hs : At long (head.contents data rest) (head.bytes.length, q) s) :
    body long stale (head.contents data rest) s =
      some (.inr { formatAt long head.bytes q with size := data.length, data := data }) := by
  obtain ⟨hlength, hname, hsize, hslice⟩ := contents_header head data rest
  obtain ⟨result, hleave, hresult⟩ := leave_data stale hs hname
  have hnumber : littleEndian (toBytes 4 data.length) = data.length := by
    rw [littleEndian_toBytes]
    exact Nat.mod_eq_of_lt hdata
  rw [hleave, hresult (by omega), hsize, hnumber, hslice]
  have hformat : formatAt long (head.contents data rest) q = formatAt long head.bytes q := formatAt_append hwalk
  rw [hformat]

theorem loads_of_inStep (h : head.InStep long) (hdata : data.length < 2 ^ 32) :
    LoadsAs long stale (head.contents data rest) (head.audio data) := by
  obtain ⟨q, hwalk, hformat⟩ := h
  obtain ⟨s, hs, hreturns⟩ := returns_walk stale
    (walk_append (dataName ++ toBytes 4 data.length ++ data ++ rest) hwalk)
  have hleave := leave_contents stale hdata hwalk hs
  rw [hformat] at hleave
  exact (hreturns _).mpr (returns_of_leave hleave)

/-! ## Files that are not -/

/-- What the array holds may be zeros. -/
def zeros : Nat → Vector UInt8 4 := fun _ => Vector.replicate 4 0

theorem zeros_toList (i : Nat) : (zeros i).toList = List.replicate 4 0 := rfl

/-- After the name of the data chunk nothing looks like a chunk where loading stops. -/
theorem not_stops_past (hb : b = 0 ∨ b = 1) {p : Nat} (hp : head.bytes.length < p) :
    ¬Stops long (head.contents [b] []) p := by
  obtain ⟨k, rfl⟩ := Nat.exists_eq_add_of_lt hp
  have hbytes : ∀ x ∈ [0x61, 0x74, 0x61, 1, 0, 0, 0, b], x ≠ 0x64 ∧ x ≠ 0x66 := by
    obtain rfl | rfl := hb <;> simp
  have htail : ∀ x, (head.contents [b] [])[head.bytes.length + k + 1]? = some x → x ≠ 0x64 ∧ x ≠ 0x66 := by
    intro x hx
    have hindex : head.bytes.length + k + 1 - head.bytes.length = k + 1 := by omega
    have hone : toBytes 4 [b].length = [1, 0, 0, 0] := by
      rw [List.length_singleton]
      decide
    have hchunk : dataName ++ toBytes 4 [b].length ++ [b] ++ [] = 0x64 :: [0x61, 0x74, 0x61, 1, 0, 0, 0, b] := by
      rw [hone]
      rfl
    rw [Head.contents, List.getElem?_append_right (by omega), hindex, hchunk, List.getElem?_cons_succ] at hx
    exact hbytes x (List.mem_of_getElem? hx)
  have hfirst : ∀ name : List UInt8, slice (head.contents [b] []) (head.bytes.length + k + 1) 4 = name →
      name[0]? = (head.contents [b] [])[head.bytes.length + k + 1]? := by
    rintro name rfl
    exact getElem?_slice (by decide)
  rintro (hname | ⟨hname, -⟩)
  · exact (htail 0x64 (hfirst _ hname).symm).1 rfl
  · exact (htail 0x66 (hfirst _ hname).symm).2 rfl

/-- Past the data chunk loading does not end. -/
theorem not_returns_past (hb : b = 0 ∨ b = 1) (hp : head.bytes.length < p.1)
    (hs : At long (head.contents [b] []) p s) (audio : AudioData) :
    ¬Returns (body long zeros (head.contents [b] [])) s audio := by
  refine not_returns (fun s => Stuck s ∨ ∃ p : Nat × Option Nat, head.bytes.length < p.1 ∧
    At long (head.contents [b] []) p s) ?_ (.inr ⟨p, hp, hs⟩) audio
  rintro s (hs | ⟨⟨p, q⟩, hp, hs⟩)
  · obtain ⟨t, hturn, ht⟩ := turn_stuck zeros_toList hs
    exact ⟨t, hturn, .inl ht⟩
  · obtain ⟨t, hturn, ht | ⟨p', hnext, ht⟩⟩ := turn_at zeros_toList hs (not_stops_past hb hp)
    · exact ⟨t, hturn, .inl ht⟩
    · have hle := le_of_next hnext
      exact ⟨t, hturn, .inr ⟨p', by omega, ht⟩⟩

variable (data rest) in
/-- What overlaps the name of the data chunk is not the size of one byte of data. -/
theorem one_lt_size {p : Nat} (hp : p < head.bytes.length) (hover : head.bytes.length < p + 8) :
    1 < littleEndian (slice (head.contents data rest) (p + 4) 4) := by
  obtain ⟨k, hk, hlower, hupper⟩ : ∃ k < 4, p + 4 ≤ head.bytes.length + k ∧ head.bytes.length + k < p + 8 :=
    ⟨p + 4 - head.bytes.length, by omega, by omega, by omega⟩
  have hbyte : ∃ x, dataName[k]? = some x ∧ 1 < x.toNat := by
    obtain rfl | rfl | rfl | rfl : k = 0 ∨ k = 1 ∨ k = 2 ∨ k = 3 := by omega
    all_goals exact ⟨_, rfl, by decide⟩
  obtain ⟨x, hx, hlt⟩ := hbyte
  refine Nat.lt_of_lt_of_le hlt (le_littleEndian (List.mem_of_getElem? (i := head.bytes.length + k - (p + 4)) ?_))
  rw [getElem?_slice (by omega), Head.contents, List.getElem?_append_right (by omega)]
  have hindex : p + 4 + (head.bytes.length + k - (p + 4)) - head.bytes.length = k := by omega
  rw [hindex, List.append_assoc, List.append_assoc, List.getElem?_append_left hk]
  exact hx

/-- What is taken for the data chunk has one byte of data, which follows its header. -/
theorem byte_of_returns {p : Nat} {q : Option Nat} (hp : p < head.bytes.length)
    (hs : At long (head.contents [b] []) (p, q) s) (hname : slice (head.contents [b] []) p 4 = dataName)
    (h : Returns (body long zeros (head.contents [b] [])) s (head.audio [b])) :
    p + 8 ≤ head.bytes.length ∧ (head.contents [b] [])[p + 8]? = some b := by
  obtain ⟨hlength, -⟩ := contents_header head [b] []
  rw [List.length_singleton] at hlength
  obtain ⟨audio, hleave, haudio⟩ := leave_data zeros hs hname
  have hsame := (returns_of_leave hleave).unique h
  rw [haudio (by omega)] at hsame
  have hsize : littleEndian (slice (head.contents [b] []) (p + 4) 4) = 1 := congrArg AudioData.size hsame
  have hdata : slice (head.contents [b] []) (p + 8) (littleEndian (slice (head.contents [b] []) (p + 4) 4)) = [b] :=
    congrArg AudioData.data hsame
  constructor
  · by_contra hover
    have hlt := one_lt_size [b] [] hp (by omega)
    omega
  · rw [hsize] at hdata
    have hfirst : (slice (head.contents [b] []) (p + 8) 1)[0]? = _ := getElem?_slice Nat.one_pos
    rw [hdata] at hfirst
    exact hfirst.symm

/-- The two files differ in their last byte only. -/
theorem getElem?_contents {i : Nat} (h : i < head.bytes.length + 8) :
    (head.contents [0] [])[i]? = (head.contents [1] [])[i]? := by
  have hsplit : ∀ b, head.contents [b] [] = (head.bytes ++ (dataName ++ toBytes 4 1)) ++ [b] := by
    intro b
    simp [Head.contents]
  have hlength : (head.bytes ++ (dataName ++ toBytes 4 1)).length = head.bytes.length + 8 := List.length_append
  have hi : i < (head.bytes ++ (dataName ++ toBytes 4 1)).length := hlength.symm ▸ h
  rw [hsplit, hsplit, List.getElem?_append_left hi, List.getElem?_append_left hi]

/-- From a header before the data chunk, if both files are loaded. -/
theorem inStep_of_walk (h : ∀ b, b = 0 ∨ b = 1 → LoadsAs long zeros (head.contents [b] []) (head.audio [b]))
    (hwalk : Walk long head.bytes p) (hp : p.1 ≤ head.bytes.length) : head.InStep long := by
  obtain ⟨p, q⟩ := p
  induction hm : head.bytes.length - p using Nat.strongRecOn generalizing p q with
  | _ m ih =>
    have hstate : ∀ b, b = 0 ∨ b = 1 → ∃ s, At long (head.contents [b] []) (p, q) s ∧
        Returns (body long zeros (head.contents [b] [])) s (head.audio [b]) := by
      intro b hb
      obtain ⟨s, hs, hreturns⟩ := returns_walk zeros
        (walk_append (dataName ++ toBytes 4 [b].length ++ [b] ++ []) hwalk)
      exact ⟨s, hs, (hreturns _).mp (h b hb)⟩
    obtain ⟨s, hs, hreturns⟩ := hstate 0 (.inl rfl)
    obtain hend | hbefore := Nat.eq_or_lt_of_le hp
    · -- the data chunk itself
      obtain rfl : p = head.bytes.length := hend
      have hleave := returns_of_leave (leave_contents zeros (by decide) hwalk hs)
      have hsame := hleave.unique hreturns
      have hfields : formatAt long head.bytes q =
          { { formatAt long head.bytes q with size := [(0 : UInt8)].length, data := [0] } with
            size := 0, data := [] } := by
        cases q <;> rfl
      exact ⟨q, hwalk, by rw [hfields, hsame]; rfl⟩
    · by_cases hstops : Stops long (head.contents [0] []) p
      · obtain hname | ⟨hname, hcut⟩ := hstops
        · obtain ⟨hinside, hzero⟩ := byte_of_returns hbefore hs hname hreturns
          obtain ⟨s', hs', hreturns'⟩ := hstate 1 (.inr rfl)
          have hname' : slice (head.contents [1] []) p 4 = dataName := by
            rw [← hname, Head.contents, Head.contents, slice_append_left (by omega), slice_append_left (by omega)]
          obtain ⟨-, hone⟩ := byte_of_returns hbefore hs' hname' hreturns'
          rw [getElem?_contents (by omega), hone] at hzero
          exact absurd (Option.some.inj hzero) (by decide)
        · obtain ⟨t, hturn, audio, hleave, hsize⟩ := leave_fmt zeros hs hname hcut
          have hsame := (returns_of_leave hleave).unique ((returns_turn_iff hturn).mp hreturns)
          rw [hsame] at hsize
          exact Nat.one_ne_zero hsize |>.elim
      · obtain ⟨t, hturn, ht⟩ := turn_at zeros_toList hs hstops
        have hnext := (returns_turn_iff hturn).mp hreturns
        obtain hstuck | ⟨⟨p', q'⟩, hstep, ht⟩ := ht
        · exact absurd hnext (not_returns Stuck (fun _ => turn_stuck zeros_toList) hstuck _)
        · by_cases hpast : p' ≤ head.bytes.length
          · have hwalk' : Walk long head.bytes (p', q') := hwalk.tail (next_of_append hstep hpast)
            have hle : p + 8 ≤ p' := le_of_next hstep
            exact ih _ (by omega) p' q' hwalk' hpast rfl
          · exact absurd hnext (not_returns_past (.inl rfl) (Nat.lt_of_not_le hpast) ht _)

theorem loads_iff (head : Head) : (∀ data rest, data.length < 2 ^ 32 → ∀ stale,
    LoadsAs long stale (head.contents data rest) (head.audio data)) ↔ head.InStep long := by
  constructor
  · intro h
    exact inStep_of_walk (fun b _ => h [b] [] (by rw [List.length_singleton]; decide) zeros) .refl (Nat.zero_le _)
  · exact fun h data rest hdata stale => loads_of_inStep h hdata

/-! ## Formats of sixteen bytes, and chunks without padding -/

theorem next_chunk (before after : List UInt8) {chunk : Chunk} (q : Option Nat)
    (hname : chunk.name ≠ riffName ∧ chunk.name ≠ fmtName ∧ chunk.name ≠ dataName)
    (heven : chunk.content.length % 2 = 0) :
    Next long (before ++ (chunk.bytes ++ after)) (before.length, q) ((before ++ chunk.bytes).length, q) := by
  have hsize : (toBytes 4 chunk.content.length).length = 4 := length_toBytes 4 _
  have hbytes : chunk.bytes = chunk.name ++ (toBytes 4 chunk.content.length ++ chunk.content) := by
    simp [Chunk.bytes, heven]
  have hlength : chunk.bytes.length = 8 + chunk.content.length := by
    rw [hbytes, List.length_append, List.length_append, chunk.four, hsize]
    omega
  have hsliceName : slice (before ++ (chunk.bytes ++ after)) before.length 4 = chunk.name := by
    rw [hbytes, List.append_assoc, ← chunk.four]
    exact slice_middle _ _ _
  have hsliceSize : slice (before ++ (chunk.bytes ++ after)) (before.length + 4) 4 =
      toBytes 4 chunk.content.length := by
    have hmiddle := slice_middle (before ++ chunk.name) (toBytes 4 chunk.content.length) (chunk.content ++ after)
    rw [List.length_append, chunk.four, hsize] at hmiddle
    rw [hbytes]
    simpa only [List.append_assoc] using hmiddle
  have hnumber : littleEndian (toBytes 4 chunk.content.length) = chunk.content.length := by
    rw [littleEndian_toBytes]
    exact Nat.mod_eq_of_lt chunk.fits
  rw [← hsliceName] at hname
  have hinside : before.length + 8 ≤ (before ++ (chunk.bytes ++ after)).length := by
    rw [List.length_append, List.length_append, hlength]
    omega
  have hnext : Next long _ (_, q) _ := Next.other hname hinside
  rw [hsliceSize, hnumber] at hnext
  rw [List.length_append, hlength, ← Nat.add_assoc]
  exact hnext

theorem walk_chunks (before after : List UInt8) (q : Option Nat) (chunks : List Chunk)
    (h : ∀ chunk ∈ chunks, (chunk.name ≠ riffName ∧ chunk.name ≠ fmtName ∧ chunk.name ≠ dataName) ∧
      chunk.content.length % 2 = 0) :
    ReflTransGen (Next long (before ++ (chunks.flatMap Chunk.bytes ++ after))) (before.length, q)
      ((before ++ chunks.flatMap Chunk.bytes).length, q) := by
  induction chunks generalizing before with
  | nil =>
    rw [List.flatMap_nil, List.append_nil]
  | cons chunk chunks ih =>
    obtain ⟨hchunk, hchunks⟩ := List.forall_mem_cons.mp h
    have hrest := ih (before ++ chunk.bytes) hchunks
    rw [List.append_assoc] at hrest
    rw [List.flatMap_cons, List.append_assoc]
    have hnext : Next long _ _ _ := next_chunk before (chunks.flatMap Chunk.bytes ++ after) q hchunk.1 hchunk.2
    rw [← List.append_assoc before chunk.bytes (chunks.flatMap Chunk.bytes)]
    exact .head hnext hrest

/-- The usual files are loaded: with a format of sixteen bytes, and no chunk that needs padding. -/
theorem inStep_of_even (hfmt : head.fmt.length = 16)
    (heven : ∀ chunk ∈ head.before ++ head.after, chunk.content.length % 2 = 0)
    (hchannels : littleEndian (slice head.fmt 2 2) < 0x8000) (hbits : littleEndian (slice head.fmt 14 2) < 0x8000) :
    head.InStep .four := by
  have hlist := List.forall_mem_append.mp head.others
  have hevens := List.forall_mem_append.mp heven
  obtain ⟨start, hstart⟩ : ∃ start, start = riffName ++ toBytes 4 head.riffSize ++ waveName := ⟨_, rfl⟩
  obtain ⟨middle, hmiddle⟩ : ∃ middle, middle = start ++ head.before.flatMap Chunk.bytes := ⟨_, rfl⟩
  have hstartLength : start.length = 12 := by
    rw [hstart, List.length_append, List.length_append, length_toBytes]
    rfl
  have hfmtBytes : head.fmtChunk.bytes = fmtName ++ (toBytes 4 head.fmt.length ++ head.fmt) := by
    simp [Chunk.bytes, Head.fmtChunk, hfmt]
  have hfmtLength : head.fmtChunk.bytes.length = 24 := by
    rw [hfmtBytes, List.length_append, List.length_append, length_toBytes, hfmt]
    rfl
  have hbefore : head.bytes =
      start ++ (head.before.flatMap Chunk.bytes ++ (head.fmtChunk.bytes ++ head.after.flatMap Chunk.bytes)) := by
    simp [Head.bytes, hstart]
  have hafter : head.bytes = (middle ++ head.fmtChunk.bytes) ++ (head.after.flatMap Chunk.bytes ++ []) := by
    simp [hbefore, hmiddle]
  have hfmtHeader : head.bytes =
      middle ++ (fmtName ++ (toBytes 4 head.fmt.length ++ head.fmt ++ head.after.flatMap Chunk.bytes)) := by
    simp [hbefore, hmiddle, hfmtBytes]
  have hfmtContent : head.bytes =
      (middle ++ fmtName ++ toBytes 4 head.fmt.length) ++ (head.fmt ++ head.after.flatMap Chunk.bytes) := by
    simp [hfmtHeader]
  have hlength : middle.length + 24 ≤ head.bytes.length := by
    rw [hafter, List.length_append, List.length_append, hfmtLength]
    omega
  have hriff : Next .four head.bytes (0, none) (start.length, none) := by
    rw [hstartLength]
    refine .riff ?_ (by omega)
    rw [hbefore, hstart, List.append_assoc, List.append_assoc]
    exact slice_append_self
  have hfmtName : slice head.bytes middle.length 4 = fmtName := by
    rw [hfmtHeader]
    exact slice_middle _ fmtName _
  have hfmtSlice : slice head.bytes (middle.length + 8) 16 = head.fmt := by
    have hslice := slice_middle (middle ++ fmtName ++ toBytes 4 head.fmt.length) head.fmt
      (head.after.flatMap Chunk.bytes)
    rw [← hfmtContent, hfmt, List.length_append, List.length_append, length_toBytes, Nat.add_assoc] at hslice
    exact hslice
  have hfmtNext : Next .four head.bytes (middle.length, none)
      ((middle ++ head.fmtChunk.bytes).length, some (middle.length + 8)) := by
    rw [List.length_append, hfmtLength]
    exact .fmt hfmtName hlength
  have hwalkBefore : ReflTransGen (Next .four _) _ _ :=
    walk_chunks start (head.fmtChunk.bytes ++ head.after.flatMap Chunk.bytes) none head.before
      fun chunk hchunk => ⟨hlist.1 chunk hchunk, hevens.1 chunk hchunk⟩
  rw [← hbefore, ← hmiddle] at hwalkBefore
  have hwalkAfter : ReflTransGen (Next .four _) _ _ :=
    walk_chunks (middle ++ head.fmtChunk.bytes) [] (some (middle.length + 8)) head.after
      fun chunk hchunk => ⟨hlist.2 chunk hchunk, hevens.2 chunk hchunk⟩
  rw [← hafter] at hwalkAfter
  rw [List.append_nil] at hafter
  rw [← hafter] at hwalkAfter
  refine ⟨some (middle.length + 8), .head hriff (hwalkBefore.trans (.head hfmtNext hwalkAfter)), ?_⟩
  have hformat : formatAt .four head.bytes (some (middle.length + 8)) =
      AudioData.empty.setFormat (.ofBytes .four head.fmt) := congrArg (fun bytes =>
    AudioData.empty.setFormat (.ofBytes .four bytes)) hfmtSlice
  have hshort : ∀ n, n < 0x8000 → shortToUInt32 n = n := fun n hn => if_pos hn
  rw [hformat]
  simp only [AudioData.setFormat, FmtChunk.ofBytes, ULong.size, AudioData.empty, Head.audio, hshort _ hchannels,
    Nat.reduceMul, Nat.reduceAdd, hshort _ hbits, List.length_nil]

/-- A format with the two bytes for the size of an extension it does not have. -/
def extended : Head where
  riffSize := 40
  before := []
  fmt := [1, 0, 1, 0, 0x44, 0xac, 0, 0, 0x88, 0x58, 1, 0, 2, 0, 16, 0, 0, 0]
  after := []
  wide := by decide
  fits := by decide
  others := by decide

/-- The name read after sixteen bytes is made of these two and the first two of the next. -/
theorem walk_extended {p : Nat × Option Nat} (h : Walk .four (extended.contents [1, 2] []) p) :
    p.1 = 0 ∨ p.1 = 12 ∨ p.1 = 36 ∨ (extended.contents [1, 2] []).length < p.1 := by
  induction h with
  | refl => exact .inl rfl
  | tail _ hnext ih =>
    cases hnext with
    | riff name inside =>
      obtain rfl | rfl | rfl | hpast := ih
      · exact .inr (.inl rfl)
      · exact absurd name (by decide)
      · exact absurd name (by decide)
      · omega
    | fmt name inside =>
      obtain rfl | rfl | rfl | hpast := ih
      · exact absurd name (by decide)
      · exact .inr (.inr (.inl rfl))
      · exact absurd name (by decide)
      · omega
    | other name inside =>
      obtain rfl | rfl | rfl | hpast := ih
      · exact absurd rfl name.1
      · exact absurd rfl name.2.1
      · have hpast : (extended.contents [1, 2] []).length <
            36 + 8 + littleEndian (slice (extended.contents [1, 2] []) (36 + 4) 4) := by decide
        exact .inr (.inr (.inr hpast))
      · omega

end Lumos.WavLoader
