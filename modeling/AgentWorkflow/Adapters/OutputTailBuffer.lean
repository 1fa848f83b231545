import Mathlib.Algebra.GroupWithZero.Nat
import AgentWorkflow.Lib.Tail

/-!
# The tail of a process's output

What an agent or a verification command prints is kept up to a number of bytes, the latest ones.
There are two classes for it: `OutputTailBuffer` of `adapters/official-cli-adapter.ts` and of
`verification/verification-runner.ts`. They have the same fields and append differently.

* `Adapter.append`, `Runner.append` — the two.
* `OutputTailBuffer.Holds` — the buffer holds the last bytes of what it was given, and has counted
  all of them. `Adapter.append_holds`, `Runner.append_holds`: each piece keeps this.
* **`outputTail_spec`** — so it is after any pieces: how the output was split does not matter, nor
  which of the two has kept it.
-/

namespace AgentWorkflow

/-- Bytes. -/
abbrev Buffer := List UInt8

/-- The fields of either class. -/
@[ext]
structure OutputTailBuffer where
  totalBytes : ℕ
  buf : Buffer
  max : ℕ
  deriving DecidableEq, Repr

namespace OutputTailBuffer

/-- Source: `official-cli-adapter.ts` and `verification-runner.ts`
`OutputTailBuffer.constructor`. -/
def new (maxBytes : ℕ) : OutputTailBuffer where
  totalBytes := 0
  buf := []
  max := maxBytes

/-! ## Appending -/

/-- Source: `official-cli-adapter.ts` `OutputTailBuffer.append`. -/
def Adapter.append (b : OutputTailBuffer) (chunk : Buffer) : OutputTailBuffer :=
  let b := { b with totalBytes := b.totalBytes + chunk.length }
  if b.buf.length + chunk.length ≤ b.max then { b with buf := b.buf ++ chunk }
  else
    let combined := b.buf ++ chunk
    { b with buf := combined.drop (combined.length - b.max) }

/-- Source: `verification-runner.ts` `OutputTailBuffer.append`. -/
def Runner.append (b : OutputTailBuffer) (chunk : Buffer) : OutputTailBuffer :=
  let b := { b with totalBytes := b.totalBytes + chunk.length }
  let combined := b.buf ++ chunk
  if combined.length ≤ b.max then { b with buf := combined }
  else { b with buf := combined.drop (combined.length - b.max) }

/-! ## What a buffer holds -/

/-- The buffer was given `output`, and keeps at most `m` bytes. -/
structure Holds (m : ℕ) (output : Buffer) (b : OutputTailBuffer) : Prop where
  max : b.max = m
  buf : b.buf = output.rtake m
  totalBytes : b.totalBytes = output.length

section holds

variable {m : ℕ} {output : Buffer} {b : OutputTailBuffer}

theorem new_holds : Holds m [] (new m) := ⟨rfl, List.rtake_nil m |>.symm, rfl⟩

/-- Two buffers that were given the same hold the same. -/
theorem Holds.unique {b' : OutputTailBuffer} (h : Holds m output b) (h' : Holds m output b') :
    b = b' :=
  OutputTailBuffer.ext (h.totalBytes.trans h'.totalBytes.symm) (h.buf.trans h'.buf.symm)
    (h.max.trans h'.max.symm)

/-- Where everything fits, nothing is dropped. -/
theorem Holds.fits (h : Holds m output b) {chunk : Buffer}
    (hfits : b.buf.length + chunk.length ≤ m) : b.buf ++ chunk = (output ++ chunk).rtake m := by
  rw [← Tail.rtake_rtake_append, ← h.buf,
    Tail.rtake_of_length_le (by rwa [List.length_append])]

/-- Otherwise the last bytes of both are kept. -/
theorem Holds.cut (h : Holds m output b) (chunk : Buffer) :
    (b.buf ++ chunk).drop ((b.buf ++ chunk).length - b.max) = (output ++ chunk).rtake m := by
  rw [h.max, ← Tail.rtake_rtake_append, ← h.buf]
  rfl

theorem Adapter.append_holds (h : Holds m output b) (chunk : Buffer) :
    Holds m (output ++ chunk) (Adapter.append b chunk) := by
  have htotal : b.totalBytes + chunk.length = (output ++ chunk).length := by
    rw [h.totalBytes, List.length_append]
  unfold Adapter.append
  by_cases hfits : b.buf.length + chunk.length ≤ b.max
  · simp only [if_pos hfits]
    exact ⟨h.max, h.fits (h.max ▸ hfits), htotal⟩
  · simp only [if_neg hfits]
    exact ⟨h.max, h.cut chunk, htotal⟩

theorem Runner.append_holds (h : Holds m output b) (chunk : Buffer) :
    Holds m (output ++ chunk) (Runner.append b chunk) := by
  have htotal : b.totalBytes + chunk.length = (output ++ chunk).length := by
    rw [h.totalBytes, List.length_append]
  unfold Runner.append
  by_cases hfits : (b.buf ++ chunk).length ≤ b.max
  · simp only [if_pos hfits]
    exact ⟨h.max, h.fits (by rwa [← List.length_append, ← h.max]), htotal⟩
  · simp only [if_neg hfits]
    exact ⟨h.max, h.cut chunk, htotal⟩

end holds

/-! ## After any pieces -/

/-- The buffer an adapter has after its chunks. -/
def Adapter.appendAll (m : ℕ) (chunks : List Buffer) : OutputTailBuffer :=
  chunks.foldl Adapter.append (new m)

/-- The buffer a verification runner has after its chunks. -/
def Runner.appendAll (m : ℕ) (chunks : List Buffer) : OutputTailBuffer :=
  chunks.foldl Runner.append (new m)

theorem Adapter.appendAll_holds (m : ℕ) (chunks : List Buffer) :
    Holds m chunks.flatten (Adapter.appendAll m chunks) :=
  Tail.fed_foldl new_holds (fun _ _ chunk h => Adapter.append_holds h chunk) chunks

theorem Runner.appendAll_holds (m : ℕ) (chunks : List Buffer) :
    Holds m chunks.flatten (Runner.appendAll m chunks) :=
  Tail.fed_foldl new_holds (fun _ _ chunk h => Runner.append_holds h chunk) chunks

/-- The last `n` bytes of an output. -/
def lastBytes (n : ℕ) (output : Buffer) : Buffer := output.drop (output.length - n)

/-- **After any chunks either buffer holds the last bytes of the output, as many as there are up to
its maximum, and has counted all of them.** So the splitting of the output does not show, and the two
agree. -/
theorem outputTail_spec (m : ℕ) (chunks : List Buffer) :
    let total := (chunks.map List.length).sum
    ((Adapter.appendAll m chunks).buf = lastBytes (min m total) chunks.flatten ∧
      (Adapter.appendAll m chunks).totalBytes = total) ∧
    ((Runner.appendAll m chunks).buf = lastBytes (min m total) chunks.flatten ∧
      (Runner.appendAll m chunks).totalBytes = total) ∧
    Adapter.appendAll m chunks = Runner.appendAll m chunks ∧
    ∀ chunks' : List Buffer, chunks'.flatten = chunks.flatten →
      Adapter.appendAll m chunks' = Adapter.appendAll m chunks ∧
        Runner.appendAll m chunks' = Runner.appendAll m chunks := by
  intro total
  have htotal : chunks.flatten.length = total := List.length_flatten
  have hlast : chunks.flatten.rtake m = lastBytes (min m total) chunks.flatten := by
    rw [List.rtake, lastBytes, htotal]
    congr 1
    omega
  have hadapter := Adapter.appendAll_holds m chunks
  have hrunner := Runner.appendAll_holds m chunks
  refine ⟨⟨hadapter.buf.trans hlast, hadapter.totalBytes.trans htotal⟩,
    ⟨hrunner.buf.trans hlast, hrunner.totalBytes.trans htotal⟩, hadapter.unique hrunner,
    fun chunks' hsame => ⟨?_, ?_⟩⟩
  · exact (hsame ▸ Adapter.appendAll_holds m chunks').unique hadapter
  · exact (hsame ▸ Runner.appendAll_holds m chunks').unique hrunner

end OutputTailBuffer

end AgentWorkflow
