import Stepwise.Json.Basic
import Stepwise.Sorting.Algorithm

/-!
# What is known about the algorithms

## Main definitions

* `Stepwise.Sorting.Guide` — the description of an algorithm.
* `Stepwise.Sorting.Algorithm.guide` — the description of each algorithm.
* `Stepwise.Sorting.Guide.toJson`, `Stepwise.Sorting.Guide.lines` — a description as a
  document and as lines of text.
-/

namespace Stepwise.Sorting

/-- The description of an algorithm. -/
structure Guide where
  name : Text
  description : Text
  /-- The time it takes in the best case. -/
  best : Text
  /-- The time it takes on average. -/
  average : Text
  /-- The time it takes in the worst case. -/
  worst : Text
  /-- The space it takes. -/
  space : Text
  /-- Equal elements keep their order. -/
  stable : Bool
  /-- A snippet that sorts in this way. -/
  code : List Text
  /-- How it works, point by point. -/
  points : List Text

/-- The description of bubble sort. -/
def bubbleGuide : Guide where
  name := "Bubble Sort".toList
  description :=
    ("A simple comparison-based algorithm that repeatedly steps through the list, " ++
      "compares adjacent elements, and swaps them if they are in the wrong order.").toList
  best := "O(n)".toList
  average := "O(n²)".toList
  worst := "O(n²)".toList
  space := "O(1)".toList
  stable := true
  code := [
    "function bubbleSort(arr) \x7b".toList,
    "  const n = arr.length;".toList,
    "".toList,
    "  for (let i = 0; i < n - 1; i++) \x7b".toList,
    "    for (let j = 0; j < n - i - 1; j++) \x7b".toList,
    "      // Compare adjacent elements".toList,
    "      if (arr[j] > arr[j + 1]) \x7b".toList,
    "        // Swap them".toList,
    "        [arr[j], arr[j + 1]] = [arr[j + 1], arr[j]];".toList,
    "      \x7d".toList,
    "    \x7d".toList,
    "  \x7d".toList,
    "".toList,
    "  return arr;".toList,
    "\x7d".toList]
  points := [
    "Start from the first element".toList,
    "Compare it with the next element".toList,
    "If the first is greater, swap them".toList,
    "Move to the next pair and repeat".toList,
    "After each pass, the largest unsorted element \"bubbles up\" to its correct position".toList,
    "Repeat until no swaps are needed".toList]

/-- The description of selection sort. -/
def selectionGuide : Guide where
  name := "Selection Sort".toList
  description :=
    ("An in-place comparison sorting algorithm that divides the input into a sorted " ++
      "and unsorted region, repeatedly selecting the smallest element from the unsorted " ++
      "region.").toList
  best := "O(n²)".toList
  average := "O(n²)".toList
  worst := "O(n²)".toList
  space := "O(1)".toList
  stable := false
  code := [
    "function selectionSort(arr) \x7b".toList,
    "  const n = arr.length;".toList,
    "".toList,
    "  for (let i = 0; i < n - 1; i++) \x7b".toList,
    "    // Find minimum element in unsorted portion".toList,
    "    let minIdx = i;".toList,
    "".toList,
    "    for (let j = i + 1; j < n; j++) \x7b".toList,
    "      if (arr[j] < arr[minIdx]) \x7b".toList,
    "        minIdx = j;".toList,
    "      \x7d".toList,
    "    \x7d".toList,
    "".toList,
    "    // Swap minimum with first unsorted element".toList,
    "    if (minIdx !== i) \x7b".toList,
    "      [arr[i], arr[minIdx]] = [arr[minIdx], arr[i]];".toList,
    "    \x7d".toList,
    "  \x7d".toList,
    "".toList,
    "  return arr;".toList,
    "\x7d".toList]
  points := [
    "Divide the array into sorted (left) and unsorted (right) portions".toList,
    "Find the minimum element in the unsorted portion".toList,
    "Swap it with the first unsorted element".toList,
    "Move the boundary one element to the right".toList,
    "Repeat until the entire array is sorted".toList]

/-- The description of insertion sort. -/
def insertionGuide : Guide where
  name := "Insertion Sort".toList
  description :=
    ("Builds the final sorted array one item at a time by repeatedly picking the next " ++
      "element and inserting it into its correct position among the previously sorted " ++
      "elements.").toList
  best := "O(n)".toList
  average := "O(n²)".toList
  worst := "O(n²)".toList
  space := "O(1)".toList
  stable := true
  code := [
    "function insertionSort(arr) \x7b".toList,
    "  const n = arr.length;".toList,
    "".toList,
    "  for (let i = 1; i < n; i++) \x7b".toList,
    "    // Pick the element to be inserted".toList,
    "    const key = arr[i];".toList,
    "    let j = i - 1;".toList,
    "".toList,
    "    // Shift elements greater than key to the right".toList,
    "    while (j >= 0 && arr[j] > key) \x7b".toList,
    "      arr[j + 1] = arr[j];".toList,
    "      j--;".toList,
    "    \x7d".toList,
    "".toList,
    "    // Insert key at correct position".toList,
    "    arr[j + 1] = key;".toList,
    "  \x7d".toList,
    "".toList,
    "  return arr;".toList,
    "\x7d".toList]
  points := [
    "Start with the second element (first element is already \"sorted\")".toList,
    "Compare it with elements in the sorted portion".toList,
    "Shift larger elements one position to the right".toList,
    "Insert the current element in its correct position".toList,
    "Move to the next element and repeat".toList,
    "Like sorting playing cards in your hand".toList]

/-- The description of quick sort. -/
def quickGuide : Guide where
  name := "Quick Sort".toList
  description :=
    ("A highly efficient divide-and-conquer algorithm that selects a \"pivot\" element " ++
      "and partitions the array around it, recursively sorting the sub-arrays.").toList
  best := "O(n log n)".toList
  average := "O(n log n)".toList
  worst := "O(n²)".toList
  space := "O(log n)".toList
  stable := false
  code := [
    "function quickSort(arr, low = 0, high = arr.length - 1) \x7b".toList,
    "  if (low < high) \x7b".toList,
    "    // Partition and get pivot index".toList,
    "    const pivotIdx = partition(arr, low, high);".toList,
    "".toList,
    "    // Recursively sort left and right of pivot".toList,
    "    quickSort(arr, low, pivotIdx - 1);".toList,
    "    quickSort(arr, pivotIdx + 1, high);".toList,
    "  \x7d".toList,
    "  return arr;".toList,
    "\x7d".toList,
    "".toList,
    "function partition(arr, low, high) \x7b".toList,
    "  const pivot = arr[high]; // Choose last element as pivot".toList,
    "  let i = low - 1;".toList,
    "".toList,
    "  for (let j = low; j < high; j++) \x7b".toList,
    "    if (arr[j] < pivot) \x7b".toList,
    "      i++;".toList,
    "      [arr[i], arr[j]] = [arr[j], arr[i]];".toList,
    "    \x7d".toList,
    "  \x7d".toList,
    "".toList,
    "  [arr[i + 1], arr[high]] = [arr[high], arr[i + 1]];".toList,
    "  return i + 1;".toList,
    "\x7d".toList]
  points := [
    "Choose a pivot element (usually the last element)".toList,
    "Partition: place smaller elements left, larger elements right".toList,
    "The pivot is now in its final sorted position".toList,
    "Recursively apply to left and right sub-arrays".toList,
    "Base case: arrays of size 0 or 1 are already sorted".toList,
    "Combine: no work needed, array is sorted in place".toList]

/-- The description of merge sort. -/
def mergeGuide : Guide where
  name := "Merge Sort".toList
  description :=
    ("A stable divide-and-conquer algorithm that divides the array into halves, " ++
      "recursively sorts them, and then merges the sorted halves back together.").toList
  best := "O(n log n)".toList
  average := "O(n log n)".toList
  worst := "O(n log n)".toList
  space := "O(n)".toList
  stable := true
  code := [
    "function mergeSort(arr) \x7b".toList,
    "  if (arr.length <= 1) return arr;".toList,
    "".toList,
    "  // Divide".toList,
    "  const mid = Math.floor(arr.length / 2);".toList,
    "  const left = mergeSort(arr.slice(0, mid));".toList,
    "  const right = mergeSort(arr.slice(mid));".toList,
    "".toList,
    "  // Merge".toList,
    "  return merge(left, right);".toList,
    "\x7d".toList,
    "".toList,
    "function merge(left, right) \x7b".toList,
    "  const result = [];".toList,
    "  let i = 0, j = 0;".toList,
    "".toList,
    "  while (i < left.length && j < right.length) \x7b".toList,
    "    if (left[i] <= right[j]) \x7b".toList,
    "      result.push(left[i++]);".toList,
    "    \x7d else \x7b".toList,
    "      result.push(right[j++]);".toList,
    "    \x7d".toList,
    "  \x7d".toList,
    "".toList,
    "  return [...result, ...left.slice(i), ...right.slice(j)];".toList,
    "\x7d".toList]
  points := [
    "Divide the array into two halves".toList,
    "Recursively sort each half".toList,
    "Merge the two sorted halves".toList,
    "Compare elements from both halves one by one".toList,
    "Place the smaller element in the result array".toList,
    "Continue until all elements are merged".toList]

/-- The description of each algorithm. -/
def Algorithm.guide : Algorithm → Guide
  | .bubble => bubbleGuide
  | .selection => selectionGuide
  | .insertion => insertionGuide
  | .quick => quickGuide
  | .merge => mergeGuide

namespace Guide

/-- The snippet as one text. -/
def codeText (guide : Guide) : Text :=
  Text.join ['\n'] guide.code

/-- A description as a document. -/
def toJson (guide : Guide) : Json :=
  .obj [
    ("name".toList, .str guide.name),
    ("description".toList, .str guide.description),
    ("time_complexity".toList, .obj [
      ("best".toList, .str guide.best),
      ("average".toList, .str guide.average),
      ("worst".toList, .str guide.worst)]),
    ("space_complexity".toList, .str guide.space),
    ("stable".toList, .bool guide.stable),
    ("code".toList, .str guide.codeText),
    ("how_it_works".toList, .arr (guide.points.map .str))]

/-- A description as lines of text, the last of which is empty. -/
def lines (guide : Guide) : List Text :=
  [guide.name,
    guide.description,
    "Time: best ".toList ++ guide.best ++ ", average ".toList ++ guide.average ++
      ", worst ".toList ++ guide.worst,
    "Space: ".toList ++ guide.space,
    "Stable: ".toList ++ (if guide.stable then "yes".toList else "no".toList)] ++
  guide.points.zipIdx.map (fun (point, i) =>
    "  ".toList ++ Text.ofNat (i + 1) ++ ". ".toList ++ point) ++
  [[]]

end Guide

end Stepwise.Sorting
