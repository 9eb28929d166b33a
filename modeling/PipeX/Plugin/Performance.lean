/-
  PipeX.Plugin.Performance

  `BenchmarkPlugin` of `src/plugin/performance.ts`: it hands on its data and keeps
  its figures in the metadata of the call.
-/
import PipeX.Core.Runtime
import Mathlib.Logic.Function.Basic

namespace PipeX

/-- `ctx.metadata`, as far as its entries are integers; a missing one is `none`. -/
abbrev BenchmarkMetadata : Type := String → Option Int

namespace BenchmarkPlugin

/-- `process(data, ctx)` at the time `now`; a start of 0 counts as missing. -/
def process (now : Int) (metadata : BenchmarkMetadata) (data : Bytes) : Bytes × BenchmarkMetadata :=
  let start := match metadata "benchmark:start" with
    | some start => if start = 0 then now else start
    | none => now
  let metadata := Function.update metadata "benchmark:in_bytes" (some data.length)
  (data, Function.update metadata "benchmark:start" (some start))

/-- `reverse(data, ctx)` at the time `now`. -/
def reverse (now : Int) (metadata : BenchmarkMetadata) (data : Bytes) : Bytes × BenchmarkMetadata :=
  let metadata := Function.update metadata "benchmark:out_bytes" (some data.length)
  match metadata "benchmark:start" with
  | some start =>
    if start = 0 then
      (data, metadata)
    else
      (data, Function.update metadata "benchmark:duration_ms" (some (now - start)))
  | none => (data, metadata)

@[simp] theorem process_data (now : Int) (metadata : BenchmarkMetadata) (data : Bytes) :
    (process now metadata data).1 = data := rfl

@[simp] theorem reverse_data (now : Int) (metadata : BenchmarkMetadata) (data : Bytes) :
    (reverse now metadata data).1 = data := by
  simp only [reverse]
  split
  · split <;> rfl
  · rfl

/-- A call back in the metadata of an earlier call forth reads off the time between
    them, whatever has been processed there before. -/
theorem reverse_process_duration {now later : Int} {metadata : BenchmarkMetadata} {data back : Bytes}
    (hnow : now ≠ 0) (hstart : metadata "benchmark:start" = none) :
    (reverse later (process now metadata data).2 back).2 "benchmark:duration_ms" =
      some (later - now) := by
  have hfirst : (process now metadata data).2 "benchmark:start" = some now := by
    simp [process, hstart]
  simp [reverse, hfirst, hnow]

end BenchmarkPlugin
end PipeX
