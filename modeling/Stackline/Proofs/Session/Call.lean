import Stackline.Proofs.Machine.Flush
import Stackline.Session.Call

/-!
# What calls are made of

Most calls of a host are put together from the same parts as operations, so what is known of those
holds of them too.  `Call.shape` tells these calls from the others.
-/

namespace Stackline.Call

open Machine

theorem composed_pushFrom (n : Nat) : ∀ next, Composed .exit (pushFrom next n) := by
  induction n with
  | zero => intro next; exact .pure ()
  | succ n ih => intro next; exact .bind (composed_push _) fun _ => ih (next + 1)

/-- A call is made of the parts of operations, or is one of the others. -/
inductive Shape : Call → Prop
  | composed {c : Call} (h : Composed .exit c.act) : Shape c
  | jump (target : Int) (settled : Bool) : Shape (.jump target settled)
  | reference (param : String) : Shape (.reference param)
  | fail (e : Error) : Shape (.fail e)
  | listing : Shape .listing
  | inspect : Shape .inspect

theorem shape (c : Call) : c.Shape := by
  cases c with
  | kill => exact .composed (.bind (.kill rfl) fun _ => .pure _)
  | jump target settled => exact .jump target settled
  | reference param => exact .reference param
  | push v => exact .composed (.bind (composed_push v) fun _ => .pure _)
  | fill n => exact .composed (.bind (composed_pushFrom n 0) fun _ => .pure _)
  | pop => exact .composed (.bind composed_pop fun _ => .pure _)
  | write s => exact .composed (.bind (.write s) fun _ => .pure _)
  | emit => exact .composed (.bind (.bind composed_pop fun _ => .write _) fun _ => .pure _)
  | apply op =>
    exact .composed (.bind (.bind composed_pop fun _ => .bind composed_pop fun _ =>
      .bind (.computed _) fun v => composed_push v) fun _ => .pure _)
  | require name n => exact .composed (.bind (.requireOn name n) fun _ => .pure _)
  | fail e => exact .fail e
  | listing => exact .listing
  | inspect => exact .inspect

/-- Machines that agree but for their flushes answer a call alike. -/
theorem agree_act {m m' : Machine} (c : Call) (h : Agree m m') :
    Results Agree (c.act m) (c.act m') := by
  cases c.shape with
  | composed hc => exact hc.agree h
  | jump target settled =>
    have hm := h.map (jumpToLine · target settled) fun m => jumpToLine_refit m target settled
    exact .ok Reply.done hm
  | reference param =>
    have hblind : Blind (act (.reference param)) := by
      intro m sink xs
      show EStateM.Result.ok (Reply.value ((m.refit sink xs).reference param).1)
        ((m.refit sink xs).reference param).2 = _
      rw [(beside_refit sink xs).reference]
      rfl
    exact hblind.agree h
  | fail e => exact .error e h
  | listing =>
    have hp : m'.program = m.program := h.view fun _ _ _ => rfl
    show Results Agree (.ok (Reply.text m.program.display) m)
      (.ok (Reply.text m'.program.display) m')
    rw [hp]
    exact .ok _ h
  | inspect =>
    have hi : m'.inspect = m.inspect := h.view fun _ _ _ => rfl
    show Results Agree (.ok (Reply.text m.inspect) m) (.ok (Reply.text m'.inspect) m')
    rw [hi]
    exact .ok _ h

end Stackline.Call
