import RubySupervisor.Proofs.Text.Cutting
import RubySupervisor.Server.Frame

/-!
# Framing

Frames are written one after the other on a stream, and a stream may end anywhere. What is read
back from the beginning of such a stream are the bodies whose frames are complete there, and
nothing else: the reader stops cleanly between two frames and with an error inside one.
-/

namespace RubySupervisor.Frame

/-- One frame after another is read off a finished stream, up to its end or the first error. -/
inductive Reads : List UInt8 → List (List UInt8) → Option ServerError → Prop where
  | ended {s : List UInt8} (h : read s = .ok none) : Reads s [] none
  | failed {s : List UInt8} {error : ServerError} (h : read s = .error error) :
      Reads s [] (some error)
  | next {s body rest : List UInt8} {bodies : List (List UInt8)} {failure : Option ServerError}
      (h : read s = .ok (some (body, rest))) (hrest : Reads rest bodies failure) :
      Reads s (body :: bodies) failure

/-- Where there is no line feed, the whole stream is one line. -/
theorem cutLine_of_not_mem {l : List UInt8} (h : 10 ∉ l) : cutLine l = (l, []) := by
  induction l with
  | nil => rfl
  | cons byte l ih =>
    rw [List.mem_cons, not_or] at h
    rw [cutLine, if_neg (Ne.symm h.1), ih h.2]

/-- A line ends behind its line feed. -/
theorem cutLine_append {l rest : List UInt8} (h : 10 ∉ l) :
    cutLine (l ++ 10 :: rest) = (l ++ [10], rest) := by
  induction l with
  | nil => rfl
  | cons byte l ih =>
    rw [List.mem_cons, not_or] at h
    rw [List.cons_append, cutLine, if_neg (Ne.symm h.1), ih h.2]
    rfl

/-- Behind a line the stream is shorter. -/
theorem cutLine_rest_lt {s : List UInt8} (h : ¬ (cutLine s).1.isEmpty = true) :
    (cutLine s).2.length < s.length := by
  have hlength := cutLine_length s
  have hline : 0 < (cutLine s).1.length := by
    rw [List.isEmpty_iff] at h
    exact List.length_pos_iff.2 h
  omega

/-- Behind its headers the stream is shorter. -/
theorem readHeaders_rest_lt {fuel : Nat} {length length' : Option Nat} {s rest : List UInt8}
    (h : readHeaders fuel length s = .ok (length', rest)) : rest.length < s.length := by
  induction fuel generalizing length s with
  | zero => simp [readHeaders] at h
  | succ fuel ih =>
    simp only [readHeaders] at h
    split at h
    · cases h
    · rename_i hline
      have hcut := cutLine_rest_lt hline
      split at h
      · cases h
      · split at h
        · cases h
          exact hcut
        · split at h
          · cases h
          · exact Nat.lt_trans (ih h) hcut
          · exact Nat.lt_trans (ih h) hcut

/-- Behind a frame the stream is shorter. -/
theorem read_rest_lt {s body rest : List UInt8} (h : read s = .ok (some (body, rest))) :
    rest.length < s.length := by
  simp only [read] at h
  split at h
  · cases h
  · split at h
    · cases h
    · cases h
    · rename_i length rest' hheaders
      have hheaders := readHeaders_rest_lt hheaders
      split at h
      · cases h
      · split at h
        · cases h
        · cases h
          rw [List.length_drop]
          omega

/-- Frames are read up to the end or the first error, as long as the fuel exceeds the length of the
stream. -/
theorem reads_readAllUpTo {fuel : Nat} {s : List UInt8} (h : s.length < fuel) :
    Reads s (readAllUpTo fuel s).1 (readAllUpTo fuel s).2 := by
  induction fuel generalizing s with
  | zero => omega
  | succ fuel ih =>
    unfold readAllUpTo
    split
    · rename_i error hread
      exact .failed hread
    · rename_i hread
      exact .ended hread
    · rename_i body rest hread
      have hrest := read_rest_lt hread
      exact .next hread (ih (by omega))

/-- There is one way to read the frames of a stream. -/
theorem Reads.unique {s : List UInt8} {bodies bodies' : List (List UInt8)}
    {failure failure' : Option ServerError} (h : Reads s bodies failure)
    (h' : Reads s bodies' failure') : bodies = bodies' ∧ failure = failure' := by
  induction h generalizing bodies' with
  | ended h => cases h' <;> simp_all
  | failed h => cases h' <;> simp_all
  | next h hrest ih =>
    cases h' with
    | ended h' => simp_all
    | failed h' => simp_all
    | next h' hrest' =>
      rw [h] at h'
      obtain ⟨rfl, rfl⟩ : _ ∧ _ := by simpa using h'
      obtain ⟨rfl, rfl⟩ := ih hrest'
      exact ⟨rfl, rfl⟩

/-- All frames of a stream are read in that way. -/
theorem readAll_eq_iff {s : List UInt8} {bodies : List (List UInt8)}
    {failure : Option ServerError} : readAll s = (bodies, failure) ↔ Reads s bodies failure := by
  have hall : Reads s (readAll s).1 (readAll s).2 := reads_readAllUpTo (Nat.lt_succ_self _)
  constructor
  · intro h
    rwa [h] at hall
  · intro h
    obtain ⟨hbodies, hfailure⟩ := hall.unique h
    exact Prod.ext hbodies hfailure

/-- The line that gives the length of a body, without its line end. -/
def lengthLine (length : Nat) : String := lengthHeader ++ ": " ++ Text.natText length

theorem toList_lengthLine (length : Nat) :
    (lengthLine length).toList =
      lengthHeader.toList ++ ':' :: ' ' :: Nat.toDigits 10 length := by
  simp [lengthLine, Text.natText, String.toList_append]

/-- A frame is the line with the length of its body, an empty line and the body. -/
theorem write_eq (body : List UInt8) :
    write body = Text.utf8 (lengthLine body.length) ++ 13 :: 10 :: 13 :: 10 :: body := by
  have hend : Text.utf8 "\r\n\r\n" = [13, 10, 13, 10] := by
    rw [Text.utf8_of_ascii (by simp)]
    rfl
  rw [write, ← lengthLine, Text.utf8_append, hend, List.append_assoc]
  rfl

/-- The line with the length is plain: it is ASCII and holds no line end. -/
theorem lengthLine_plain {length : Nat} {c : Char} (h : c ∈ (lengthLine length).toList) :
    c.toNat < 128 ∧ c ≠ '\r' ∧ c ≠ '\n' := by
  rw [toList_lengthLine, List.mem_append, List.mem_cons, List.mem_cons] at h
  rcases h with h | rfl | rfl | h
  · revert c
    simp [lengthHeader]
  · decide
  · decide
  · have hdigit := Text.toNat_of_isAsciiDigit (Text.isAsciiDigit_of_mem_toDigits h)
    refine ⟨by omega, ?_, ?_⟩
    · rintro rfl
      simp at hdigit
    · rintro rfl
      simp at hdigit

/-- The line with the length ends where its line feed is. -/
theorem not_mem_lengthLine (length : Nat) : 10 ∉ Text.utf8 (lengthLine length) := by
  rw [Text.utf8_of_ascii fun c hc => (lengthLine_plain hc).1, List.mem_map]
  rintro ⟨c, hc, hbyte⟩
  obtain ⟨hascii, -, hfeed⟩ := lengthLine_plain hc
  have hcode : c.toNat = 10 := by
    have h := congrArg UInt8.toNat hbyte
    rw [Text.asciiByte, UInt8.toNat_ofNat_of_lt' (by simp [UInt8.size]; omega)] at h
    exact h
  exact hfeed (Char.toNat_inj.1 hcode)

/-- A header line without line ends is what stands before its own. -/
theorem dropLineEnd_append {line : List Char} (h : ∀ c ∈ line, c ≠ '\r' ∧ c ≠ '\n') :
    dropLineEnd (line ++ ['\r', '\n']) = line := by
  have hkept : line.reverse.dropWhile (fun c => c == '\r' || c == '\n') = line.reverse := by
    cases hline : line.reverse with
    | nil => rfl
    | cons c rest =>
      obtain ⟨hreturn, hfeed⟩ := h c (List.mem_reverse.1 (by simp [hline]))
      simp [hreturn, hfeed]
  simp [dropLineEnd, hkept]

/-- The line with the length gives the length. -/
theorem headerLength?_lengthLine {length : Nat} (h : length < Nat.pow 2 64) :
    headerLength? (lengthLine length).toList = .ok (some length) := by
  have hdigits (c : Char) (hc : c ∈ Nat.toDigits 10 length) : Text.isBlank c = false :=
    Text.isBlank_of_isAsciiDigit (Text.isAsciiDigit_of_mem_toDigits hc)
  have hvalue : Text.trimChars (' ' :: Nat.toDigits 10 length) = Nat.toDigits 10 length :=
    Text.trimChars_of_not_blank hdigits
  have hname : (Text.trimChars lengthHeader.toList).map lower = lengthHeader.toList.map lower := by
    decide
  rw [headerLength?, toList_lengthLine, Text.cutFirst?_append (by decide)]
  simp only [hname, if_true, hvalue, Text.unsigned?_toDigits h]

/-- What is read behind the line with the length. -/
theorem readHeaders_lengthLine (fuel : Nat) {length : Nat} (h : length < Nat.pow 2 64)
    (given : Option Nat) (s : List UInt8) :
    readHeaders (fuel + 1) given (Text.utf8 (lengthLine length) ++ 13 :: 10 :: s) =
      readHeaders fuel (some length) s := by
  have hline :
      Text.utf8 (lengthLine length) ++ [13, 10] = Text.utf8 (lengthLine length ++ "\r\n") := by
    rw [Text.utf8_append, Text.utf8_of_ascii (s := "\r\n") (by simp)]
    rfl
  have hcut : cutLine (Text.utf8 (lengthLine length) ++ 13 :: 10 :: s) =
      (Text.utf8 (lengthLine length ++ "\r\n"), s) := by
    have hfeed : 10 ∉ Text.utf8 (lengthLine length) ++ [13] := by
      simpa using not_mem_lengthLine length
    have hcut : cutLine ((Text.utf8 (lengthLine length) ++ [13]) ++ 10 :: s) = _ :=
      cutLine_append hfeed
    rwa [List.append_assoc, List.append_assoc, List.singleton_append, List.singleton_append,
      hline] at hcut
  have hne : (Text.utf8 (lengthLine length ++ "\r\n")).isEmpty = false := by
    simp [← hline]
  have hheader : dropLineEnd (lengthLine length ++ "\r\n").toList = (lengthLine length).toList := by
    rw [String.toList_append]
    exact dropLineEnd_append fun c hc => (lengthLine_plain hc).2
  have hnonempty : (lengthLine length).toList.isEmpty = false := by
    simp [toList_lengthLine]
  rw [readHeaders, hcut]
  simp only [hne, Text.ofUtf8?_utf8, hheader, hnonempty, headerLength?_lengthLine h,
    Bool.false_eq_true, if_false]

/-- The empty line ends the headers. -/
theorem readHeaders_emptyLine {fuel : Nat} (given : Option Nat) (s : List UInt8) :
    readHeaders (fuel + 1) given (13 :: 10 :: s) = .ok (given, s) := by
  have hcut : cutLine (13 :: 10 :: s) = ([13, 10], s) := rfl
  have htext : Text.ofUtf8? ⟨[13, 10].toArray⟩ = some "\r\n" :=
    Text.ofUtf8?_ascii (s := "\r\n") (by simp)
  rw [readHeaders, hcut]
  simp only [List.isEmpty_cons, Bool.false_eq_true, if_false, htext]
  rfl

/-- At the end of the stream the empty line ends the headers also without its line feed. -/
theorem readHeaders_return {fuel : Nat} (given : Option Nat) :
    readHeaders (fuel + 1) given [13] = .ok (given, []) := by
  have htext : Text.ofUtf8? ⟨[13].toArray⟩ = some "\r" :=
    Text.ofUtf8?_ascii (s := "\r") (by simp)
  have hcut : cutLine [13] = ([13], []) := rfl
  rw [readHeaders, hcut]
  simp only [List.isEmpty_cons, Bool.false_eq_true, if_false, htext]
  rfl

/-- A stream that ends where a header line is due is closed inside the headers. -/
theorem readHeaders_nil {fuel : Nat} (given : Option Nat) :
    readHeaders fuel given [] = .error (.protocol .closedInHeaders) := by
  cases fuel <;> rfl

/-- Headers without a line feed give no length. -/
theorem readHeaders_of_not_mem (fuel : Nat) {s : List UInt8} (h : 10 ∉ s) :
    (∃ error, readHeaders fuel none s = .error error) ∨
      ∃ rest, readHeaders fuel none s = .ok (none, rest) := by
  cases fuel with
  | zero => exact .inl ⟨_, rfl⟩
  | succ fuel =>
    rw [readHeaders, cutLine_of_not_mem h]
    dsimp only
    split
    · exact .inl ⟨_, rfl⟩
    · split
      · exact .inl ⟨_, rfl⟩
      · split
        · exact .inr ⟨_, rfl⟩
        · split
          · exact .inl ⟨_, rfl⟩
          · exact .inl ⟨_, readHeaders_nil _⟩
          · exact .inl ⟨_, readHeaders_nil _⟩

/-- A stream that begins without a line feed and does not go on is an error. -/
theorem read_of_not_mem {s : List UInt8} (hs : s ≠ []) (h : 10 ∉ s) :
    ∃ error, read s = .error error := by
  have hne : s.isEmpty = false := by simpa using hs
  rcases readHeaders_of_not_mem (s.length + 1) h with ⟨error, hread⟩ | ⟨rest, hread⟩
  · exact ⟨error, by simp [read, hne, hread]⟩
  · exact ⟨.protocol .missingLength, by simp [read, hne, hread]⟩

/-- The greatest body length is far below what a header can say. -/
theorem lt_of_le_maxBodyLength {length : Nat} (h : length ≤ maxBodyLength) :
    length < Nat.pow 2 64 := Nat.lt_of_le_of_lt h (by decide)

/-- What is read behind complete headers: as many bytes as they say. -/
theorem read_headers {length : Nat} (h : length ≤ maxBodyLength) (s : List UInt8) :
    read (Text.utf8 (lengthLine length) ++ 13 :: 10 :: 13 :: 10 :: s) =
      if s.length < length then .error (.io .endOfStream)
      else .ok (some (s.take length, s.drop length)) := by
  have hheaders (fuel : Nat) : readHeaders (fuel + 2) none
      (Text.utf8 (lengthLine length) ++ 13 :: 10 :: 13 :: 10 :: s) = .ok (some length, s) :=
    (readHeaders_lengthLine _ (lt_of_le_maxBodyLength h) none _).trans (readHeaders_emptyLine _ s)
  have hlength : (Text.utf8 (lengthLine length) ++ 13 :: 10 :: 13 :: 10 :: s).length + 1 =
      (Text.utf8 (lengthLine length) ++ 13 :: 10 :: 13 :: s).length + 2 := by
    simp only [List.length_append, List.length_cons]
    omega
  have hne : (Text.utf8 (lengthLine length) ++ 13 :: 10 :: 13 :: 10 :: s).isEmpty = false := by
    simp
  simp only [read, hne, hlength, hheaders, Nat.not_lt.2 h, Bool.false_eq_true, if_false]

/-- A written frame is read back, and what follows it is left. -/
theorem read_write {body : List UInt8} (h : body.length ≤ maxBodyLength) (s : List UInt8) :
    read (write body ++ s) = .ok (some (body, s)) := by
  have hframe : write body ++ s =
      Text.utf8 (lengthLine body.length) ++ 13 :: 10 :: 13 :: 10 :: (body ++ s) := by
    simp [write_eq]
  rw [hframe, read_headers h, if_neg (by simp), List.take_left, List.drop_left]

/-- Headers that end behind their first line, with or without the carriage return of the empty
line, are followed by no body. -/
theorem read_cut_headers {length : Nat} (hpos : 0 < length) (h : length ≤ maxBodyLength)
    {s : List UInt8} (hs : s = [] ∨ s = [13]) :
    ∃ error, read (Text.utf8 (lengthLine length) ++ 13 :: 10 :: s) = .error error := by
  have hheaders := readHeaders_lengthLine
    (Text.utf8 (lengthLine length) ++ 13 :: 10 :: s).length
    (lt_of_le_maxBodyLength h) none s
  have hne : (Text.utf8 (lengthLine length) ++ 13 :: 10 :: s).isEmpty = false := by simp
  have hlength : ∃ fuel, (Text.utf8 (lengthLine length) ++ 13 :: 10 :: s).length = fuel + 1 :=
    ⟨(Text.utf8 (lengthLine length) ++ 13 :: s).length, by simp; omega⟩
  obtain ⟨fuel, hfuel⟩ := hlength
  rcases hs with rfl | rfl
  · rw [readHeaders_nil] at hheaders
    refine ⟨.protocol .closedInHeaders, ?_⟩
    simp only [read, hne, hheaders, Bool.false_eq_true, if_false]
  · rw [hfuel, readHeaders_return] at hheaders
    refine ⟨.io .endOfStream, ?_⟩
    simp only [read, hne, hfuel, hheaders, Nat.not_lt.2 h, List.length_nil, hpos,
      Bool.false_eq_true, if_true, if_false]

/-- A frame that is cut off inside is an error, wherever the cut is. -/
theorem read_take_write {body : List UInt8} (hne : body ≠ []) (h : body.length ≤ maxBodyLength)
    {n : Nat} (hpos : 0 < n) (hcut : n < (write body).length) :
    ∃ error, read ((write body).take n) = .error error := by
  rw [write_eq] at hcut ⊢
  have hline := not_mem_lengthLine body.length
  rcases Nat.lt_or_ge n ((Text.utf8 (lengthLine body.length)).length + 2) with hfirst | hfirst
  · -- the cut leaves no line feed
    have htake : (Text.utf8 (lengthLine body.length) ++ 13 :: 10 :: 13 :: 10 :: body).take n =
        (Text.utf8 (lengthLine body.length) ++ [13]).take n := by
      rw [← List.singleton_append, ← List.append_assoc]
      exact List.take_append_of_le_length (by simp; omega)
    rw [htake]
    refine read_of_not_mem ?_ fun hfeed => ?_
    · simp [Nat.ne_of_gt hpos]
    · have hmem := List.mem_of_mem_take hfeed
      simp [hline] at hmem
  · obtain ⟨k, rfl⟩ := Nat.exists_eq_add_of_le hfirst
    have htake : (Text.utf8 (lengthLine body.length) ++ 13 :: 10 :: 13 :: 10 :: body).take
        ((Text.utf8 (lengthLine body.length)).length + 2 + k) =
        Text.utf8 (lengthLine body.length) ++ 13 :: 10 :: (13 :: 10 :: body).take k := by
      rw [Nat.add_assoc, List.take_length_add_append, Nat.add_comm 2 k]
      rfl
    rw [htake]
    -- the cut is between the two line ends, inside the second one, or in the body
    match k with
    | 0 => exact read_cut_headers (List.length_pos_iff.2 hne) h (.inl rfl)
    | 1 => exact read_cut_headers (List.length_pos_iff.2 hne) h (.inr rfl)
    | k + 2 =>
      have hshort : (body.take k).length < body.length := by
        simp only [List.length_append, List.length_cons] at hcut
        rw [List.length_take]
        omega
      refine ⟨.io .endOfStream, ?_⟩
      have hread := read_headers h (body.take k)
      rwa [if_pos hshort] at hread

/-- Where the first frames of a stream end. -/
def boundary (bodies : List (List UInt8)) (count : Nat) : Nat :=
  ((bodies.take count).flatMap write).length

theorem boundary_zero (bodies : List (List UInt8)) : boundary bodies 0 = 0 := by simp [boundary]

theorem boundary_cons (body : List UInt8) (bodies : List (List UInt8)) (count : Nat) :
    boundary (body :: bodies) (count + 1) = (write body).length + boundary bodies count := by
  simp [boundary]

/-- A frame is longer than its body by the text around the length and its digits. -/
theorem length_write (body : List UInt8) :
    (write body).length = 20 + (Nat.toDigits 10 body.length).length + body.length := by
  rw [write_eq, Text.utf8_of_ascii fun c hc => (lengthLine_plain hc).1, toList_lengthLine]
  simp [lengthHeader]
  omega

/-- What is read from a stream of frames that is cut off: the first bodies, which are those whose
frames lie before the cut, and no failure exactly if the cut is where a frame ends. -/
structure Recovered (bodies : List (List UInt8)) (cut count : Nat)
    (failure : Option ServerError) : Prop where
  reads : Reads ((bodies.flatMap write).take cut) (bodies.take count) failure
  whole : ∀ i < bodies.length, i < count ↔ boundary bodies (i + 1) ≤ cut
  clean : failure = none ↔ ∃ i ≤ bodies.length, cut = boundary bodies i

/-- From an empty stream nothing is read. -/
theorem Recovered.start (bodies : List (List UInt8)) : Recovered bodies 0 0 none := by
  refine ⟨.ended ?_, fun i hi => ?_, ?_⟩
  · rw [List.take_zero]
    rfl
  · obtain ⟨body, rest, rfl⟩ : ∃ body rest, bodies = body :: rest :=
      List.exists_cons_of_length_pos (Nat.zero_lt_of_lt hi)
    rw [boundary_cons, length_write]
    omega
  · exact ⟨fun _ => ⟨0, Nat.zero_le _, (boundary_zero bodies).symm⟩, fun _ => rfl⟩

/-- A cut inside the first frame leaves no body, and an error. -/
theorem Recovered.inside {body : List UInt8} {bodies : List (List UInt8)} (hne : body ≠ [])
    (h : body.length ≤ maxBodyLength) {cut : Nat} (hpos : 0 < cut)
    (hcut : cut < (write body).length) :
    ∃ error, Recovered (body :: bodies) cut 0 (some error) := by
  obtain ⟨error, hread⟩ := read_take_write hne h hpos hcut
  have hbeyond (i : Nat) : cut < boundary (body :: bodies) (i + 1) := by
    rw [boundary_cons]
    omega
  refine ⟨error, .failed ?_, fun i _ => ?_, ?_⟩
  · rw [List.flatMap_cons, List.take_append_of_le_length (Nat.le_of_lt hcut), hread]
  · have hlate := hbeyond i
    omega
  · refine ⟨fun hnone => absurd hnone (Option.some_ne_none error), fun ⟨i, _, hend⟩ => ?_⟩
    cases i with
    | zero =>
      rw [boundary_zero] at hend
      omega
    | succ i =>
      have hlate := hbeyond i
      omega

/-- A cut behind the first frame leaves its body and what is read behind it. -/
theorem Recovered.behind {body : List UInt8} {bodies : List (List UInt8)}
    (h : body.length ≤ maxBodyLength) {cut count : Nat} {failure : Option ServerError}
    (hrest : Recovered bodies cut count failure) :
    Recovered (body :: bodies) ((write body).length + cut) (count + 1) failure := by
  refine ⟨?_, fun i hi => ?_, ?_⟩
  · rw [List.flatMap_cons, List.take_length_add_append]
    exact .next (read_write h _) hrest.reads
  · cases i with
    | zero =>
      rw [boundary_cons, boundary_zero]
      omega
    | succ i =>
      have hwhole := hrest.whole i (Nat.lt_of_succ_lt_succ hi)
      rw [boundary_cons]
      omega
  · rw [hrest.clean]
    constructor
    · rintro ⟨i, hi, rfl⟩
      exact ⟨i + 1, Nat.succ_le_succ hi, (boundary_cons _ _ _).symm⟩
    · rintro ⟨i, hi, hend⟩
      cases i with
      | zero =>
        rw [boundary_zero, length_write] at hend
        omega
      | succ i =>
        rw [boundary_cons] at hend
        exact ⟨i, Nat.le_of_succ_le_succ hi, Nat.add_left_cancel hend⟩

/-- What is read from every stream of frames, wherever it is cut off. -/
theorem exists_recovered {bodies : List (List UInt8)}
    (h : ∀ body ∈ bodies, body ≠ [] ∧ body.length ≤ maxBodyLength) {cut : Nat}
    (hcut : cut ≤ (bodies.flatMap write).length) :
    ∃ count failure, Recovered bodies cut count failure := by
  induction bodies generalizing cut with
  | nil =>
    obtain rfl : cut = 0 := by simpa using hcut
    exact ⟨0, none, .start []⟩
  | cons body bodies ih =>
    obtain ⟨hne, hlimit⟩ := h body List.mem_cons_self
    rcases Nat.lt_or_ge cut (write body).length with hinside | hbehind
    · rcases Nat.eq_zero_or_pos cut with rfl | hpos
      · exact ⟨0, none, .start _⟩
      · obtain ⟨error, hrecovered⟩ := Recovered.inside hne hlimit hpos hinside
        exact ⟨0, some error, hrecovered⟩
    · obtain ⟨rest, rfl⟩ := Nat.exists_eq_add_of_le hbehind
      rw [List.flatMap_cons, List.length_append] at hcut
      obtain ⟨count, failure, hrecovered⟩ :=
        ih (fun other hother => h other (List.mem_cons_of_mem body hother))
          (show rest ≤ (bodies.flatMap write).length by omega)
      exact ⟨count + 1, failure, hrecovered.behind hlimit⟩

/-- **Theorem (framing).** Bodies are written as frames one after the other, and the stream of them
is cut off anywhere. What is read back, frame by frame, are the bodies whose frames lie before the
cut, in order; then comes the clean end of the stream if the cut is where a frame ends, and an error
if it is not. -/
theorem readAll_take_frames {bodies : List (List UInt8)}
    (h : ∀ body ∈ bodies, body ≠ [] ∧ body.length ≤ maxBodyLength) {cut : Nat}
    (hcut : cut ≤ (bodies.flatMap write).length) :
    ∃ count failure, Recovered bodies cut count failure ∧
      readAll ((bodies.flatMap write).take cut) = (bodies.take count, failure) := by
  obtain ⟨count, failure, hrecovered⟩ := exists_recovered h hcut
  exact ⟨count, failure, hrecovered, readAll_eq_iff.2 hrecovered.reads⟩

/-- Two bodies; the second one looks like headers. -/
def headerlike : List (List UInt8) :=
  [[123, 125], "Content-Length: 1\r\n\r\n".toList.map Text.asciiByte]

/-- A cut inside the second body leaves the first one, and an error. -/
theorem headerlike_cut :
    (∀ body ∈ headerlike, body ≠ [] ∧ body.length ≤ maxBodyLength) ∧
      50 ≤ (headerlike.flatMap write).length ∧
      ∃ error, readAll ((headerlike.flatMap write).take 50) = ([[123, 125]], some error) := by
  have hbodies : ∀ body ∈ headerlike, body ≠ [] ∧ body.length ≤ maxBodyLength := by decide
  have hone : (Nat.toDigits 10 2).length = 1 := by decide
  have htwo : (Nat.toDigits 10 21).length = 2 := by decide
  have hfirst : boundary headerlike 1 = 23 := by
    simp [boundary, headerlike, length_write, hone]
  have hsecond : boundary headerlike 2 = 66 := by
    simp [boundary, headerlike, length_write, hone, htwo]
  have hcut : 50 ≤ (headerlike.flatMap write).length := by
    change 50 ≤ boundary headerlike 2
    omega
  obtain ⟨count, failure, hrecovered, hread⟩ := readAll_take_frames hbodies hcut
  have hcount : count = 1 := by
    have hwhole : 0 < count ↔ boundary headerlike 1 ≤ 50 := hrecovered.whole 0 (by decide)
    have hpart : 1 < count ↔ boundary headerlike 2 ≤ 50 := hrecovered.whole 1 (by decide)
    omega
  cases failure with
  | some error =>
    subst hcount
    exact ⟨hbodies, hcut, error, hread⟩
  | none =>
    obtain ⟨i, hi, hend⟩ := hrecovered.clean.1 rfl
    match i with
    | 0 => simp [boundary] at hend
    | 1 => omega
    | 2 => omega
    | i + 3 => exact absurd hi (by simp [headerlike])

end RubySupervisor.Frame
