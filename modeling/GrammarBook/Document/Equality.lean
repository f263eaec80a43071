import GrammarBook.Document.Basic

namespace GrammarBook

/-!
# Equality of documents

Documents can be compared: the trees that hold lists of themselves are compared level by level,
a node together with the list of its children.
-/

mutual

def Term.decEq : (left right : Term) → Decidable (left = right)
  | .reference a, .reference b => decidable_of_iff (a = b) (by simp)
  | .literal a, .literal b => decidable_of_iff (a = b) (by simp)
  | .bracket a c, .bracket b d =>
    have := Term.decEqList a b
    decidable_of_iff (a = b ∧ c = d) (by simp)
  | .reference _, .bracket .. => isFalse (by simp)
  | .reference _, .literal _ => isFalse (by simp)
  | .bracket .., .reference _ => isFalse (by simp)
  | .bracket .., .literal _ => isFalse (by simp)
  | .literal _, .reference _ => isFalse (by simp)
  | .literal _, .bracket .. => isFalse (by simp)

def Term.decEqList : (left right : List Term) → Decidable (left = right)
  | [], [] => isTrue rfl
  | [], _ :: _ => isFalse (by simp)
  | _ :: _, [] => isFalse (by simp)
  | a :: as, b :: bs =>
    have := Term.decEq a b
    have := Term.decEqList as bs
    decidable_of_iff (a = b ∧ as = bs) (by simp)

end

instance : DecidableEq Term := Term.decEq

deriving instance DecidableEq for Definition
deriving instance DecidableEq for Rule

mutual

def Pattern.decEq : (left right : Pattern) → Decidable (left = right)
  | .mk a as, .mk b bs =>
    have := Sequence.decEq a b
    have := Sequence.decEqList as bs
    decidable_of_iff (a = b ∧ as = bs) (by simp)

def Sequence.decEq : (left right : Sequence) → Decidable (left = right)
  | .mk as, .mk bs =>
    have := Repetition.decEqList as bs
    decidable_of_iff (as = bs) (by simp)

def Sequence.decEqList : (left right : List Sequence) → Decidable (left = right)
  | [], [] => isTrue rfl
  | [], _ :: _ => isFalse (by simp)
  | _ :: _, [] => isFalse (by simp)
  | a :: as, b :: bs =>
    have := Sequence.decEq a b
    have := Sequence.decEqList as bs
    decidable_of_iff (a = b ∧ as = bs) (by simp)

def Repetition.decEq : (left right : Repetition) → Decidable (left = right)
  | .mk a c, .mk b d =>
    have := Element.decEq a b
    decidable_of_iff (a = b ∧ c = d) (by simp)

def Repetition.decEqList : (left right : List Repetition) → Decidable (left = right)
  | [], [] => isTrue rfl
  | [], _ :: _ => isFalse (by simp)
  | _ :: _, [] => isFalse (by simp)
  | a :: as, b :: bs =>
    have := Repetition.decEq a b
    have := Repetition.decEqList as bs
    decidable_of_iff (a = b ∧ as = bs) (by simp)

def Element.decEq : (left right : Element) → Decidable (left = right)
  | .group a, .group b =>
    have := Pattern.decEq a b
    decidable_of_iff (a = b) (by simp)
  | .filter a, .filter b => decidable_of_iff (a = b) (by simp)
  | .atom a, .atom b => decidable_of_iff (a = b) (by simp)
  | .group _, .filter _ => isFalse (by simp)
  | .group _, .atom _ => isFalse (by simp)
  | .filter _, .group _ => isFalse (by simp)
  | .filter _, .atom _ => isFalse (by simp)
  | .atom _, .group _ => isFalse (by simp)
  | .atom _, .filter _ => isFalse (by simp)

end

instance : DecidableEq Pattern := Pattern.decEq

deriving instance DecidableEq for Expression
deriving instance DecidableEq for Document

end GrammarBook
