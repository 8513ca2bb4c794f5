import ClassMachine.Proofs.Operations

/-!
# Comparing runs under other settings

Two runs of a machine under different settings can be compared effect for effect, as long as the
settings make no difference. They have a say in two operations only: the construction in a frame of
its own and the one from outside. So those two are all that has to be compared by hand. Then all
calls compare, and so do performers that are one level deeper (`ClassMachine.step_compared`).
-/

namespace ClassMachine

variable {α : Type} {K : Comparison fun _ => True} {p q : Performer}
  (hpq : ∀ ⦃α : Type⦄ (task : Task α), K.Holds (p task) (q task))

include hpq

/-- What needs no operation compares whatever the settings are. -/
theorem MadeOf.compared_alone {A : Effect → Prop} {F : Performer → Action α}
    (hF : MadeOf A .none F) : K.Holds (F p) (F q) :=
  hF.compared (fun _ _ => trivial) (fun e ctx => hpq (.eval e ctx)) fun _ _ h => h.elim

variable {s s' : Settings}
  (hconstruct : ∀ cls args, K.Holds (construct s p cls args) (construct s' q cls args))

include hconstruct

theorem call_compared (c : Call α) : K.Holds (c.run s p) (c.run s' q) := by
  have hc := call_madeOf s c
  cases c with
  | construct cls args => exact hconstruct cls args
  | constructValue callee args =>
    exact K.bind ((calledClass_client callee).compared_alone hpq) fun cls => hconstruct cls args
  -- the other calls do not know of the settings
  | _ => exact hc.compared_constructions (fun _ _ => trivial) hpq

theorem performReentry_compared (ctx : Context) (op : Reentry) (args : List Value) :
    K.Holds (performReentry s p ctx op args) (performReentry s' q ctx op args) := by
  have hop : MadeOf (fun _ => True) .Constructions fun perform =>
      performReentry s perform ctx op args :=
    have : Hosts (fun _ => True) .Constructions := .of_client fun _ _ => trivial
    performReentry_madeOf ctx (fun _ => call_madeOf s) op args
  cases op with
  | construct =>
    exact K.bind ((classIdOf_client (A := Effect.IsClient) _).compared_alone hpq) fun cls =>
      K.bind_pure (hconstruct cls (args.drop 1)) Value.ref
  | constructValue =>
    exact K.bind_pure
      (call_compared hpq hconstruct (.constructValue (argAt args 0) (args.drop 1))) Value.ref
  | _ => exact hop.compared_constructions (fun _ _ => trivial) hpq

theorem evaluateExpr_compared (ctx : Context) (e : Expr) :
    K.Holds (evaluateExpr s p ctx e) (evaluateExpr s' q ctx e) := by
  have he : MadeOf (fun _ => True) .Constructions fun perform =>
      evaluateExpr s perform ctx e :=
    have : Hosts (fun _ => True) .Constructions := .of_client fun _ _ => trivial
    evaluateExpr_madeOf ctx (fun _ => call_madeOf s) e
  cases e with
  | reentry op args =>
    have hargs := (evaluateAll_client (A := Effect.IsClient) (X := .none) ctx args).compared_alone
      hpq
    exact K.bind hargs fun vs => performReentry_compared hpq hconstruct ctx op vs
  | _ => exact he.compared_constructions (fun _ _ => trivial) hpq

/-- **Each level passes the comparison on** if both kinds of constructions do. -/
theorem step_compared (hframe : ∀ cls newTarget args,
      K.Holds (constructFor s p cls newTarget args) (constructFor s' q cls newTarget args))
    (task : Task α) : K.Holds (step s p task) (step s' q task) := by
  cases task with
  | eval e ctx => exact evaluateExpr_compared hpq hconstruct ctx e
  | construct cls newTarget args => exact hframe cls newTarget args

end ClassMachine
