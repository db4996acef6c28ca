namespace SqlOutline

/-- The signs that may open an amount of money. -/
def currencySigns : List Char := [
  '$', '£', '¢', '¤', '¥', '€', '₡', '₱', '﷼', '₩', '₮', '₨', '₫', '฿', '៛', '₪', '₭', '₦', '৲',
  '৳', '﹩', '₠', '₢', '₣', '₤', '₥', '₧', '₯', '₰', '＄', '￠', '￡', '￥', '￦']

def isCurrencySign (c : Char) : Bool :=
  currencySigns.contains c

end SqlOutline
