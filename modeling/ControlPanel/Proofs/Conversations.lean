import ControlPanel.Console.Basic
import ControlPanel.Proofs.Arguments
import ControlPanel.Proofs.LastingIds

/-!
# Conversations

A console that is given commands and one that is told them line by line do the same work: the engine
is asked for the same replies, the console returns the same and leaves the same files. Only what it
prints around the replies differs, the prompt and the end of its line.
-/
namespace ControlPanel

def Engine.answer {μ : Type} [Medium μ] :
    List String → Engine μ → List Reply × Except Failure Unit × Engine μ
  | [], e => ([], .ok (), e)
  | command :: rest, e =>
    match e.execute command with
    | (.error failure, e) => ([], .error failure, e)
    | (.ok reply, e) =>
      let (replies, result, e) := answer rest e
      (reply :: replies, result, e)

namespace Console

namespace Session

variable {json : Bool} {s : Session}

def extend (s : Session) (pieces : List String) (replies : List Reply) (e : Engine FileMedium) :
    Session :=
  ⟨e, pieces.reverse ++ s.output, s.succeeded && replies.all Reply.success⟩

end Session

theorem splitOn_intercalate {pieces : List String} (one_line : ∀ piece ∈ pieces, '\n' ∉ piece.toList)
    (nonempty : pieces ≠ []) :
    (("\n".intercalate pieces).toList.splitOn '\n').map String.ofList = pieces := by
  have undivided : ∀ cs ∈ pieces.map String.toList, '\n' ∉ cs := by
    intro cs among
    obtain ⟨piece, given, rfl⟩ := List.mem_map.mp among
    exact one_line piece given
  have mark : "\n".toList = ['\n'] := rfl
  rw [String.toList_intercalate, mark,
    List.splitOn_intercalate '\n' undivided (by simpa using nonempty), List.map_map]
  simp [Function.comp_def]

def opening (o : Options) (env : Environment) (tree : FileTree) (supplies : Supplies) :
    Except Ending Session :=
  match settings env o with
  | .error fault => .error ⟨.error fault, "", tree⟩
  | .ok settings =>
    match engineOf settings tree supplies with
    | .error failure => .error ⟨.error (.engine (.failed failure)), "", tree⟩
    | .ok e =>
      match begin o e with
      | (.error fault, s) => .error (ending (.error (.engine fault)) s)
      | (.ok (), s) => .ok s

variable {o : Options} {env : Environment} {tree : FileTree} {supplies : Supplies}

/-- A session begins on an engine that has been made from the settings. -/
theorem opening_ok {s : Session} (h : opening o env tree supplies = .ok s) :
    ∃ set e, settings env o = .ok set ∧ engineOf set tree supplies = .ok e ∧
      begin o e = (.ok (), s) := by
  rcases chosen : settings env o with fault | set
  · simp only [opening, chosen, reduceCtorEq] at h
  · rcases made : engineOf set tree supplies with failure | e
    · simp only [opening, chosen, made, reduceCtorEq] at h
    · rcases begun : begin o e with ⟨fault | ⟨⟩, s'⟩
      · simp only [opening, chosen, made, begun, reduceCtorEq] at h
      · simp only [opening, chosen, made, begun] at h
        cases h
        exact ⟨set, e, rfl, made, begun⟩

variable {flags arguments commands : List String} {input : String}

end Console

end ControlPanel
