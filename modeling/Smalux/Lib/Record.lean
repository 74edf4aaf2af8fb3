/-
  Subject:   Records of what has happened, the newest entry first.

  * `Always` -- each entry stands in a relation to what had happened before it;
  * `always_append` -- entries that stand in it to anything.
-/
import Mathlib.Data.List.Basic

namespace Lib

variable {E : Type}

/-- Each entry, with the record before it. -/
def Always (P : E → List E → Prop) : List E → Prop
  | [] => True
  | e :: past => P e past ∧ Always P past

instance Always.decidable (P : E → List E → Prop) [∀ e past, Decidable (P e past)] :
    ∀ record : List E, Decidable (Always P record)
  | [] => .isTrue trivial
  | e :: past =>
    have := Always.decidable P past
    inferInstanceAs (Decidable (P e past ∧ Always P past))

/-- Entries of which it holds whatever came before. -/
theorem always_append {P : E → List E → Prop} {record : List E} : ∀ {entries : List E},
    (∀ e ∈ entries, ∀ past, P e past) → Always P record → Always P (entries ++ record)
  | [], _, hrecord => hrecord
  | e :: _, h, hrecord =>
    ⟨h e List.mem_cons_self _, always_append (fun e' he' => h e' (List.mem_cons_of_mem e he')) hrecord⟩

end Lib
